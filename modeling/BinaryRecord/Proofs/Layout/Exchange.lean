import BinaryRecord.Proofs.Code.Integer
import BinaryRecord.Proofs.Layout.Alike

/-!
# Codes that stand for one another

The two letters for a signed integer of 32 bits store and read the same units, and so do the two
for an unsigned one. The two codes of 64 bits store the same units too, since both let integers
wrap, but read them in different classes. So any groups of a layout may take the other code of
their pair: values are packed alike, but for the code that an error names, and bytes are unpacked
alike, but for the class of integers of 64 bits.

## Main definitions

* `Code.counterpart`: the other code of a pair.
* `Layout.exchange`: the layout with the counterparts of the codes of some groups.
* `Value.turned`: the same 64 bits as an integer of the other class.
* `Error.Recoded`: the same error, or one that names the counterpart of the code.
-/

namespace BinaryRecord
open Except (Agree)

/-! ## Pairs of codes -/

/-- The same 64 bits as an integer of the other class. -/
def Value.turned : Value → Value
  | .int n => .uint n.toUInt64
  | .uint n => .int n.toInt64
  | v => v

namespace Code

/-- The code that stores integers in the same units; the codes of pads, strings, floating-point
numbers and shorter integers have no other. -/
def counterpart : Code → Code
  | int32 => long
  | long => int32
  | uint32 => ulong
  | ulong => uint32
  | int64 => uint64
  | uint64 => int64
  | c => c

@[simp] theorem width_counterpart (c : Code) : c.counterpart.width = c.width := by cases c <;> rfl

@[simp] theorem isPad_counterpart (c : Code) : c.counterpart.isPad = c.isPad := by cases c <;> rfl

@[simp] theorem isString_counterpart (c : Code) : c.counterpart.isString = c.isString := by
  cases c <;> rfl

theorem kind_counterpart {c : Code} (hsigned : c ≠ .int64) (hunsigned : c ≠ .uint64) :
    c.counterpart.kind = c.kind := by
  cases c
  case int64 => exact absurd rfl hsigned
  case uint64 => exact absurd rfl hunsigned
  all_goals rfl

end Code

/-- The same error, or one that names the counterpart of the code. -/
inductive Error.Recoded : Error → Error → Prop
  | same (e : Error) : Recoded e e
  | outOfRange (c : Code) (n : ℤ) : Recoded (.outOfRange c n) (.outOfRange c.counterpart n)
  | unsuitableValue (c : Code) (found : Value.Tag) :
      Recoded (.unsuitableValue c found) (.unsuitableValue c.counterpart found)

namespace Code
variable (c : Code) (length : ℕ) (o : ByteOrder)

theorem accepts_counterpart_iff (n : ℤ) :
    (c.counterpart.width = 8 ∨ (c.counterpart.lowest ≤ n ∧ n ≤ c.counterpart.highest)) ↔
      (c.width = 8 ∨ (c.lowest ≤ n ∧ n ≤ c.highest)) := by
  cases c <;> simp [counterpart, lowest, highest, isSigned, kind, width, entry]

/-- The codes of a pair accept the same integers and store them in the same word. -/
theorem agree_integerWord_counterpart (v : Value) :
    Agree Error.Recoded (c.integerWord v) (c.counterpart.integerWord v) := by
  unfold integerWord
  cases v.integer? with
  | none => exact .error (.unsuitableValue c v.tag)
  | some n =>
    simp only [accepts_counterpart_iff]
    split
    · exact .ok _
    · exact .error (.outOfRange c n)

/-- The codes of a pair store a value in the same unit, or refuse it alike. -/
theorem agree_encode_counterpart (v : Value) :
    Agree Error.Recoded (c.encode length o v) (c.counterpart.encode length o v) := by
  have hinteger (hkind : c.kind = .signed ∨ c.kind = .unsigned)
      (hkind' : c.counterpart.kind = .signed ∨ c.counterpart.kind = .unsigned) :
      Agree Error.Recoded (c.encode length o v) (c.counterpart.encode length o v) := by
    rw [encode_of_integer_kind hkind, encode_of_integer_kind hkind', width_counterpart]
    exact (c.agree_integerWord_counterpart v).map _
  cases c
  case int32 | long | int64 => exact hinteger (.inl rfl) (by decide)
  case uint32 | ulong | uint64 => exact hinteger (.inr rfl) (by decide)
  all_goals exact .refl .same _

end Code

/-- A value read under the one code as the other reads its unit, if the codes differ in the class of
an integer at most. -/
def Value.reread (c c' : Code) (v : Value) : Value := if c'.kind = c.kind then v else v.turned

theorem Value.reread_of_kind_eq {c c' : Code} (h : c'.kind = c.kind) : reread c c' = id :=
  funext fun _ => if_pos h

theorem Value.reread_of_kind_ne {c c' : Code} (h : c'.kind ≠ c.kind) : reread c c' = turned :=
  funext fun _ => if_neg h

/-- A word of eight bytes has no bits to fill with its sign. -/
theorem Word.signExtend_eight (w : UInt64) : signExtend 8 w = w.toInt64 := by
  simp [signExtend]

/-- The codes of a pair read a unit alike, but for the class of integers of 64 bits. -/
theorem Code.decode_counterpart (c : Code) (o : ByteOrder) (unit : Bytes) :
    c.counterpart.decode o unit = (c.decode o unit).map (Value.reread c c.counterpart) := by
  cases c
  case int64 | uint64 =>
    rw [Value.reread_of_kind_ne (by decide)]
    simp [counterpart, decode, kind, width, entry, Word.signExtend_eight, Value.turned]
  all_goals
    rw [Value.reread_of_kind_eq (by decide), Option.map_id_fun]
    rfl

/-! ## Exchange -/

namespace Group
variable (g : Group)

/-- The group under the counterpart of its code. -/
def exchange : Group := { g with code := g.code.counterpart }

theorem sameExtent_exchange : g.SameExtent g.exchange where
  isPad_eq := by simp [exchange]
  units_eq := by simp [exchange, units]
  unitLength_eq := by simp [exchange, unitLength, byteLength]

theorem storesAlike_exchange : g.StoresAlike Error.Recoded id g.exchange where
  sameExtent := g.sameExtent_exchange
  agree := by
    intro v
    rw [encodeUnit, encodeUnit, g.sameExtent_exchange.unitLength_eq]
    exact g.code.agree_encode_counterpart g.unitLength g.order v

theorem readsAlike_exchange :
    g.ReadsAlike (Value.reread g.code g.exchange.code) g.exchange where
  sameExtent := g.sameExtent_exchange
  decodeUnit_eq := g.code.decode_counterpart g.order

end Group

namespace Layout

/-- The layout with the counterparts of the codes of the groups in the chosen places. -/
def exchange (chosen : ℕ → Bool) (layout : Layout) : Layout :=
  layout.mapIdx fun i g => if chosen i then g.exchange else g

/-- A relation of all groups to themselves and of the chosen ones to their exchanged ones relates
the groups before and after the exchange. -/
theorem forall₂_exchange {R : Group → Group → Prop} {chosen : ℕ → Bool} {layout : Layout}
    (hkeep : ∀ g, R g g)
    (hexchange : ∀ i g, layout[i]? = some g → chosen i = true → R g g.exchange) :
    List.Forall₂ R layout (layout.exchange chosen) := by
  induction layout generalizing chosen with
  | nil => exact .nil
  | cons g layout ih =>
    rw [exchange, List.mapIdx_cons]
    refine .cons ?_ (ih fun i g => hexchange (i + 1) g)
    split
    · next hchosen => exact hexchange 0 g rfl hchosen
    · exact hkeep g

theorem agree_pack_exchange (chosen : ℕ → Bool) (layout : Layout) (mode : Mode)
    (vs : List Value) :
    Agree Error.Recoded (layout.pack mode vs) ((layout.exchange chosen).pack mode vs) := by
  have hstore : List.Forall₂ (Group.StoresAlike Error.Recoded id) layout (layout.exchange chosen) :=
    forall₂_exchange (.refl .same) fun _ g _ _ => g.storesAlike_exchange
  have hagree := agree_pack_of_forall₂ .same hstore mode vs
  rwa [List.map_id] at hagree

theorem readsAlike_exchange (chosen : ℕ → Bool) (layout : Layout) :
    List.Forall₂ (fun g g' => g.ReadsAlike (Value.reread g.code g'.code) g') layout
      (layout.exchange chosen) := by
  apply forall₂_exchange
  · intro g
    rw [Value.reread_of_kind_eq rfl]
    exact .refl g
  · intro _ g _ _
    exact g.readsAlike_exchange

/-- Only the codes of 64 bits read units in another class than their counterparts. -/
theorem readsAlike_exchange_of_short {chosen : ℕ → Bool} {layout : Layout}
    (h : ∀ (i : ℕ) (g : Group), layout[i]? = some g → chosen i = true →
      g.code ≠ .int64 ∧ g.code ≠ .uint64) :
    List.Forall₂ (Group.ReadsAlike id) layout (layout.exchange chosen) := by
  refine forall₂_exchange .refl ?_
  intro i g hg hchosen
  obtain ⟨hsigned, hunsigned⟩ := h i g hg hchosen
  have hkind : g.exchange.code.kind = g.code.kind := Code.kind_counterpart hsigned hunsigned
  have hread := g.readsAlike_exchange
  rwa [Value.reread_of_kind_eq hkind] at hread

theorem byteLength_exchange (chosen : ℕ → Bool) (layout : Layout) :
    (layout.exchange chosen).byteLength = layout.byteLength :=
  byteLength_of_forall₂ (forall₂_exchange .refl fun _ g _ _ => g.sameExtent_exchange)

theorem valueCount_exchange (chosen : ℕ → Bool) (layout : Layout) :
    (layout.exchange chosen).valueCount = layout.valueCount :=
  valueCount_of_forall₂ (forall₂_exchange .refl fun _ g _ _ => g.sameExtent_exchange)

end Layout

/-- Any groups of a layout may take the other code of their pair. The layout covers the same bytes
and takes up as many values. Values are packed to the same bytes or refused with the same error, in
which only the code can differ. Bytes are unpacked with the same failures and to as many values,
each of which is the same if its codes before and after have the same class, and else the same 64
bits in the other class. So all values are the same if no code of 64 bits is exchanged. -/
theorem Format.exchange_alike (f : Format) (chosen : ℕ → Bool) :
    (f.layout.exchange chosen).byteLength = f.layout.byteLength ∧
    (f.layout.exchange chosen).valueCount = f.layout.valueCount ∧
    (∀ (mode : Mode) (vs : List Value),
      Agree Error.Recoded (f.layout.pack mode vs) ((f.layout.exchange chosen).pack mode vs)) ∧
    (∀ (mode : Mode) (bs : Bytes) (e : Error),
      (f.layout.exchange chosen).unpack mode bs = .error e ↔ f.layout.unpack mode bs = .error e) ∧
    (∀ (mode : Mode) (bs : Bytes) (vs : List Value), f.layout.unpack mode bs = .ok vs →
      ∃ vs', (f.layout.exchange chosen).unpack mode bs = .ok vs' ∧ vs'.length = vs.length ∧
        ∀ (j : ℕ) (v : Value), vs[j]? = some v →
          ∃ g g', f.layout.slots[j]? = some g ∧ (f.layout.exchange chosen).slots[j]? = some g' ∧
            vs'[j]? = some (v.reread g.code g'.code)) ∧
    ((∀ (i : ℕ) (g : Group), f.layout[i]? = some g → chosen i = true →
        g.code ≠ .int64 ∧ g.code ≠ .uint64) →
      ∀ (mode : Mode) (bs : Bytes),
        (f.layout.exchange chosen).unpack mode bs = f.layout.unpack mode bs) := by
  have hread := Layout.unpack_of_forall₂ f.wellFormed.groups (f.layout.readsAlike_exchange chosen)
  have hcount := f.layout.valueCount_exchange chosen
  refine ⟨f.layout.byteLength_exchange chosen, hcount, f.layout.agree_pack_exchange chosen, ?_, ?_,
    ?_⟩
  · intro mode bs e
    rw [hread, Except.map_eq_error_iff]
  · intro mode bs vs hvs
    have hslots := Layout.length_of_unpack_le_valueCount f.wellFormed hvs
    refine ⟨_, by rw [hread, hvs]; rfl, Layout.length_reread hcount hslots, ?_⟩
    intro j v hv
    exact Layout.getElem?_reread hcount hslots hv
  · intro hshort mode bs
    rw [Layout.unpack_of_forall₂ (t := fun _ _ => id) f.wellFormed.groups
      (Layout.readsAlike_exchange_of_short hshort)]
    cases hvs : f.layout.unpack mode bs with
    | error e => rfl
    | ok vs =>
      have hslots := Layout.length_of_unpack_le_valueCount f.wellFormed hvs
      rw [Except.map, Layout.reread_id hcount hslots]

/-- Of a signed long and two integers of 64 bits the first two are exchanged: only the second value
is another one, and a long that is too large is refused under the other code. -/
theorem Format.exchange_alike_mixed :
    ∃ (f : Format) (vs : List Value), f.text = "<lqQ" ∧
      f.layout.unpack .strict (List.replicate 20 255) =
        .ok [.int (-1), .int (-1), .uint 18446744073709551615] ∧
      (f.layout.exchange (· < 2)).unpack .strict (List.replicate 20 255) = .ok vs ∧
      vs.length = 3 ∧ vs[1]? = some (.uint 18446744073709551615) ∧
      Agree Error.Recoded (.error (.outOfRange .long 2147483648))
        ((f.layout.exchange (· < 2)).pack .strict [.uint 2147483648, .int 0, .int 0]) ∧
      (f.layout.exchange (· < 1)).unpack .loose [254, 255, 255, 255] =
        f.layout.unpack .loose [254, 255, 255, 255] := by
  obtain ⟨layout, hlayout⟩ : ∃ layout : Layout, layout = [⟨1, .long, .little, 4⟩,
      ⟨1, .int64, .little, 8⟩, ⟨1, .uint64, .little, 8⟩] := ⟨_, rfl⟩
  have hparse : Layout.parse "<lqQ" = .ok layout := by
    rw [hlayout]
    decide
  have hunpack : layout.unpack .strict (List.replicate 20 255) =
      .ok [.int (-1), .int (-1), .uint 18446744073709551615] := by
    rw [hlayout]
    decide
  have hpack : layout.pack .strict [.uint 2147483648, .int 0, .int 0] =
      .error (.outOfRange .long 2147483648) := by
    rw [hlayout]
    decide
  have hslot : layout.slots[1]? = some ⟨1, .int64, .little, 8⟩ := by
    rw [hlayout]
    rfl
  have hslot' : (layout.exchange (· < 2)).slots[1]? = some ⟨1, .uint64, .little, 8⟩ := by
    rw [hlayout]
    rfl
  have hfirst : ∀ (i : ℕ) (g : Group), layout[i]? = some g → decide (i < 1) = true →
      g.code ≠ .int64 ∧ g.code ≠ .uint64 := by
    intro i g hg hi
    obtain rfl : i = 0 := by simpa using hi
    obtain rfl : g = ⟨1, .long, .little, 4⟩ := by simpa [hlayout, eq_comm] using hg
    decide
  obtain ⟨-, -, hstore, -, hread, -⟩ := exchange_alike ⟨"<lqQ", layout, hparse⟩ (· < 2)
  obtain ⟨-, -, -, -, -, hsame⟩ := exchange_alike ⟨"<lqQ", layout, hparse⟩ (· < 1)
  obtain ⟨vs, hvs, hlen, hvalue⟩ := hread .strict _ _ hunpack
  obtain ⟨g, g', hg, hg', hsecond⟩ := hvalue 1 (.int (-1)) rfl
  have hstored := hstore .strict [.uint 2147483648, .int 0, .int 0]
  rw [hpack] at hstored
  obtain rfl := Option.some.inj (hslot.symm.trans hg)
  obtain rfl := Option.some.inj (hslot'.symm.trans hg')
  exact ⟨⟨"<lqQ", layout, hparse⟩, vs, rfl, hunpack, hvs, hlen, hsecond, hstored,
    hsame hfirst .loose _⟩

end BinaryRecord
