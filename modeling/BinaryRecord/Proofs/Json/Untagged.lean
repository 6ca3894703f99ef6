import BinaryRecord.Proofs.Code.Integer
import BinaryRecord.Proofs.Json.Item
import BinaryRecord.Proofs.Layout.Alike

/-!
# Values through JSON without their slots

Read without knowing its slot, the JSON form of a value gives the value back, but an unsigned
integer that fits a signed word comes back signed, and a number that is not finite is lost. Codes
store integers of both classes alike, so packing tells no difference, except that an error may
name the other class.

## Main definitions

* `Value.signed`: the value in the class that its JSON form is read as.
* `Error.Resigned`: the same error, or one that names the signed class instead.
-/

namespace BinaryRecord

/-! ## Reading the form -/

namespace Value

/-- The value in the class that its JSON form is read as: signed, if the integer fits. -/
def signed : Value → Value
  | .uint n => if n < 0x8000000000000000 then .int n.toInt64 else .uint n
  | v => v

/-- Only an unsigned integer that fits a signed word comes back in another class. -/
theorem signed_cases (v : Value) : v.signed = v ∨
    ∃ (n : UInt64) (m : Int64), v = .uint n ∧ v.signed = .int m ∧ m.toInt = n.toNat := by
  cases v with
  | uint n =>
    by_cases h : n < 0x8000000000000000
    · exact .inr ⟨n, n.toInt64, rfl, by simp [signed, h], Word.toInt_toInt64 h⟩
    · exact .inl (by simp [signed, h])
  | _ => exact .inl rfl

theorem mapM_byte?_ofByte (data : Bytes) : (data.map Json.ofByte).mapM Json.byte? = some data := by
  induction data with
  | nil => rfl
  | cons b data ih => simp [List.mapM_cons, ih]

/-- The JSON form of a finite value is read as the value, in the class of its form. -/
theorem ofJson?_toJson (v : Value) :
    ofJson? v.toJson = if v.isFinite then some v.signed else none := by
  cases v with
  | int n => simp [toJson, ofJson?, JsonNumber.int64?_ofInt64, isFinite, signed]
  | uint n =>
    by_cases h : n < 0x8000000000000000
    · simp [toJson, ofJson?, JsonNumber.int64?, isFinite, signed, h]
    · simp [toJson, ofJson?, JsonNumber.int64?, JsonNumber.uint64?, isFinite, signed, h]
  | float x =>
    by_cases hfinite : x.isFinite = true
    · simp [toJson, Json.ofBinary64, ofJson?, JsonNumber.int64?, JsonNumber.uint64?,
        JsonNumber.toBinary64, isFinite, signed, hfinite]
    · simp [toJson, Json.ofBinary64, ofJson?, isFinite, hfinite]
  | bytes data =>
    change ((data.map Json.ofByte).mapM Json.byte?).map bytes = _
    rw [mapM_byte?_ofByte]
    rfl

end Value

/-! ## Storing the value that was read -/

/-- The same error, or one that names the signed class where the other names the unsigned one. -/
def Error.Resigned (e e' : Error) : Prop :=
  e' = e ∨ ∃ c, e = .unsuitableValue c .uint ∧ e' = .unsuitableValue c .int

theorem Error.Resigned.refl (e : Error) : e.Resigned e := .inl rfl

open Except (Agree)

namespace Code
variable (c : Code) (length : ℕ) (o : ByteOrder)

/-- The two classes of an integer are stored alike or refused alike. -/
theorem agree_encode_uint_int {n : UInt64} {m : Int64} (h : m.toInt = n.toNat) :
    Agree Error.Resigned (c.encode length o (.uint n)) (c.encode length o (.int m)) := by
  have hrefused : Error.Resigned (.unsuitableValue c .uint) (.unsuitableValue c .int) :=
    .inr ⟨c, rfl, rfl⟩
  cases hkind : c.kind with
  | pad =>
    simp only [encode, hkind]
    exact .ok _
  | signed | unsigned =>
    rw [encode_int_eq_encode_uint (by simp [hkind]) h]
    exact .refl Error.Resigned.refl _
  | float =>
    simp only [encode, hkind]
    exact .error hrefused
  | fixedString | pascalString =>
    simp only [encode, hkind]
    exact .error hrefused

theorem agree_encode (v : Value) :
    Agree Error.Resigned (c.encode length o v) (c.encode length o v.signed) := by
  rcases v.signed_cases with heq | ⟨n, m, rfl, hsigned, h⟩
  · rw [heq]
    exact .refl Error.Resigned.refl _
  · rw [hsigned]
    exact c.agree_encode_uint_int length o h

end Code

namespace Layout
variable {ρ : Error → Error → Prop} {r : Value → Value}

/-- If a change of values makes no difference where each is stored, it makes none to packing. -/
theorem agree_pack (hrefl : ∀ e, ρ e e)
    (h : ∀ (g : Group) (v : Value), Agree ρ (g.encodeUnit v) (g.encodeUnit (r v)))
    (layout : Layout) (mode : Mode) (vs : List Value) :
    Agree ρ (layout.pack mode vs) (layout.pack mode (vs.map r)) := by
  have hstore : List.Forall₂ (Group.StoresAlike ρ r) layout layout :=
    List.forall₂_same.mpr fun g _ => ⟨.refl g, h g⟩
  exact agree_pack_of_forall₂ hrefl hstore mode vs

end Layout

namespace Value

theorem mapM_ofJson?_toJson {vs : List Value} (h : ∀ v ∈ vs, v.isFinite = true) :
    vs.mapM (fun v => ofJson? v.toJson) = some (vs.map signed) := by
  induction vs with
  | nil => rfl
  | cons v vs ih =>
    obtain ⟨hv, hvs⟩ := List.forall_mem_cons.mp h
    rw [List.mapM_cons, ih hvs, ofJson?_toJson, if_pos hv]
    rfl

/-- The JSON form of a value, read without its slot, is the value again. Only an unsigned integer
that fits a signed word comes back signed, and a number that is not finite does not come back.
Finite values that went through their forms are packed to the same bytes by any groups in each
mode, or refused with the same error, in which only the class of an integer can differ. -/
theorem ofJson?_toJson_packs_alike :
    (∀ n, ofJson? (int n).toJson = some (int n)) ∧
    (∀ n : UInt64, 2 ^ 63 ≤ n.toNat → ofJson? (uint n).toJson = some (uint n)) ∧
    (∀ n : UInt64, n.toNat < 2 ^ 63 →
      ∃ m : Int64, m.toInt = n.toNat ∧ ofJson? (uint n).toJson = some (int m)) ∧
    (∀ x, ofJson? (float x).toJson = if x.isFinite then some (float x) else none) ∧
    (∀ data, ofJson? (bytes data).toJson = some (bytes data)) ∧
    ∀ (layout : Layout) (mode : Mode) (vs : List Value), (∀ v ∈ vs, v.isFinite = true) →
      ∃ ws, vs.mapM (fun v => ofJson? v.toJson) = some ws ∧
        (layout.pack mode ws = layout.pack mode vs ∨
          ∃ c, layout.pack mode vs = .error (.unsuitableValue c .uint) ∧
            layout.pack mode ws = .error (.unsuitableValue c .int)) := by
  have hsmall : ∀ n : UInt64, n < 0x8000000000000000 ↔ n.toNat < 2 ^ 63 := by
    intro n
    exact UInt64.lt_iff_toNat_lt
  refine ⟨?_, ?_, ?_, ?_, ?_, ?_⟩
  · intro n
    exact ofJson?_toJson (int n)
  · intro n hn
    simp [ofJson?_toJson, isFinite, signed, (hsmall n).not.mpr (by omega)]
  · intro n hn
    have hlt := (hsmall n).mpr hn
    refine ⟨n.toInt64, Word.toInt_toInt64 hlt, ?_⟩
    simp [ofJson?_toJson, isFinite, signed, hlt]
  · intro x
    exact ofJson?_toJson (float x)
  · intro data
    exact ofJson?_toJson (bytes data)
  · intro layout mode vs hfinite
    refine ⟨vs.map signed, mapM_ofJson?_toJson hfinite, ?_⟩
    have hagree := Layout.agree_pack Error.Resigned.refl
      (fun g v => g.code.agree_encode g.unitLength g.order v) layout mode vs
    revert hagree
    generalize layout.pack mode vs = before
    generalize layout.pack mode (vs.map signed) = after
    rintro (_ | (rfl | ⟨c, rfl, rfl⟩))
    · exact .inl rfl
    · exact .inl rfl
    · exact .inr ⟨c, rfl, rfl⟩

/-- An integer for a slot of a floating-point number is refused under the class that it has. -/
theorem ofJson?_toJson_packs_alike_mismatch :
    ∃ ws, [Value.uint 200, .uint 5].mapM (fun v => ofJson? v.toJson) = some ws ∧
      Layout.pack [⟨1, .uint8, .little, 1⟩, ⟨1, .float64, .little, 8⟩] .loose [.uint 200, .uint 5] =
        .error (.unsuitableValue .float64 .uint) ∧
      Layout.pack [⟨1, .uint8, .little, 1⟩, ⟨1, .float64, .little, 8⟩] .loose ws =
        .error (.unsuitableValue .float64 .int) := by
  obtain ⟨ws, hws, hpack⟩ := ofJson?_toJson_packs_alike.2.2.2.2.2
    [⟨1, .uint8, .little, 1⟩, ⟨1, .float64, .little, 8⟩] .loose [.uint 200, .uint 5] (by decide)
  have hsigned : [Value.uint 200, .uint 5].mapM (fun v => ofJson? v.toJson) =
      some [.int 200, .int 5] := by decide
  have hbefore : Layout.pack [⟨1, .uint8, .little, 1⟩, ⟨1, .float64, .little, 8⟩] .loose
      [.uint 200, .uint 5] = .error (.unsuitableValue .float64 .uint) := by decide
  obtain rfl := Option.some.inj (hsigned.symm.trans hws)
  rw [hbefore] at hpack
  refine ⟨_, hws, hbefore, ?_⟩
  rcases hpack with hsame | ⟨c, hc, hafter⟩
  · exact absurd hsame (by decide)
  · obtain ⟨rfl, -⟩ := Error.unsuitableValue.inj (Except.error.inj hc)
    exact hafter

end Value

end BinaryRecord
