import BinaryRecord.Json.Value
import BinaryRecord.Proofs.Code.Stored
import BinaryRecord.Proofs.Text.Utf8

/-!
# A value in the JSON form of its slot

The JSON form drops the class of a value and the slot's code gives it back. Only a number
that is not finite is lost, because JSON has none.

## Main definitions

* `Value.isFinite`: the value has a JSON form of its own.
* `Kind.tag?`: the class of the values that are read under a kind.
-/

namespace BinaryRecord

/-- The value is neither an infinity nor a NaN. -/
def Value.isFinite : Value → Bool
  | .float x => x.isFinite
  | _ => true

/-- The class of the values that are read under a kind; pads have none. -/
def Kind.tag? : Kind → Option Value.Tag
  | .pad => none
  | .signed => some .int
  | .unsigned => some .uint
  | .float => some .float
  | .fixedString | .pascalString => some .bytes

/-- The kinds under which values of a class are read. -/
theorem Kind.eq_of_tag? {k : Kind} {t : Value.Tag} (h : k.tag? = some t) :
    match t with
    | .int => k = .signed
    | .uint => k = .unsigned
    | .float => k = .float
    | .bytes => k = .fixedString ∨ k = .pascalString := by
  cases k <;> cases h <;> simp

theorem Code.tag?_kind_of_decode {c : Code} {o : ByteOrder} {unit : Bytes} {v : Value}
    (h : c.decode o unit = some v) : c.kind.tag? = some v.tag := by
  unfold decode at h
  cases hkind : c.kind <;> simp only [hkind] at h
  case pad => cases h
  case pascalString =>
    obtain ⟨data, -, rfl⟩ := Option.map_eq_some_iff.mp h
    rfl
  all_goals
    obtain rfl := Option.some.inj h
    rfl

/-! ## Integers -/

namespace JsonNumber

theorem int64?_ofInt64 (n : Int64) : (ofInt64 n).int64? = some n := by
  unfold ofInt64
  split
  · rfl
  · next hneg =>
    have hword := Int64.toNat_toUInt64_of_le (Int64.not_lt.mp hneg)
    have hlt := n.toInt_lt
    rw [← Int64.toNat_toInt] at hword
    have hsmall : n.toUInt64 < 0x8000000000000000 := by
      rw [UInt64.lt_iff_toNat_lt, hword]
      simp only [UInt64.reduceToNat]
      omega
    rw [int64?, if_pos hsmall, Int64.toInt64_toUInt64]

end JsonNumber

namespace Code
variable {c : Code}

theorem readInteger?_ofInt64 (hkind : c.kind = .signed) (n : Int64) :
    c.readInteger? (.ofInt64 n) = some (.int n) := by
  rw [readInteger?, JsonNumber.int64?_ofInt64]
  cases (JsonNumber.ofInt64 n).uint64? <;> simp [isSigned, hkind]

theorem readInteger?_natural (hkind : c.kind = .unsigned) (n : UInt64) :
    c.readInteger? (.natural n) = some (.uint n) := by
  rw [readInteger?]
  cases (JsonNumber.natural n).int64? <;> simp [JsonNumber.uint64?, isSigned, hkind]

end Code

/-! ## Byte strings -/

@[simp] theorem Json.byte?_ofByte (b : UInt8) : (ofByte b).byte? = some b := by
  have hlt : b.toNat < 256 := b.toNat_lt
  simp [ofByte, byte?, JsonNumber.uint64?, hlt]

theorem Code.readBytes_ofByte (data : Bytes) : readBytes (data.map Json.ofByte) = .ok data := by
  rw [readBytes, ← Except.all_map, Except.all_eq_ok_iff, List.map_map]
  simp

/-! ## Items -/

namespace Value

@[simp] theorem toJsonAs_int (text : Bool) (n : Int64) :
    (int n).toJsonAs text = .number (.ofInt64 n) := by cases text <;> rfl

@[simp] theorem toJsonAs_uint (text : Bool) (n : UInt64) :
    (uint n).toJsonAs text = .number (.natural n) := by cases text <;> rfl

@[simp] theorem toJsonAs_float (text : Bool) (x : Binary64) :
    (float x).toJsonAs text = .ofBinary64 x := by cases text <;> rfl

theorem toJsonAs_bytes (text : Bool) (data : Bytes) : (bytes data).toJsonAs text =
    if text then .string (Utf8.decodeLossy data) else .array (data.map Json.ofByte) := by
  cases text <;> rfl

end Value

namespace Code
variable {c : Code} {item : Json} {v : Value}

theorem readItem_float_iff (hkind : c.kind = .float) :
    c.readItem item = .ok v ↔ ∃ n, item = .number n ∧ v = .float n.toBinary64 := by
  cases item <;> simp [readItem, hkind, eq_comm]

theorem readItem_integer_iff (hkind : c.kind = .signed ∨ c.kind = .unsigned) :
    c.readItem item = .ok v ↔ ∃ n, item = .number n ∧ c.readInteger? n = some v := by
  cases item with
  | number n =>
    rcases hkind with hkind | hkind <;>
      cases hread : c.readInteger? n <;> simp [readItem, hkind, hread]
  | _ => rcases hkind with hkind | hkind <;> simp [readItem, hkind]

theorem readItem_ofBinary64 (hkind : c.kind = .float) (x : Binary64) :
    c.readItem (.ofBinary64 x) =
      if x.isFinite then .ok (.float x) else .error (.notNumber c .null) := by
  by_cases hfinite : x.isFinite = true
  · simp [readItem, hkind, Json.ofBinary64, hfinite, JsonNumber.toBinary64]
  · simp [readItem, hkind, Json.ofBinary64, hfinite]

theorem readItem_string (hkind : c.kind = .fixedString ∨ c.kind = .pascalString) (s : String) :
    c.readItem (.string s) = .ok (.bytes (Utf8.encode s)) := by
  rcases hkind with hkind | hkind <;> simp [readItem, hkind, Value.ofString]

theorem readItem_array (hkind : c.kind = .fixedString ∨ c.kind = .pascalString)
    (items : List Json) : c.readItem (.array items) = (readBytes items).map .bytes := by
  rcases hkind with hkind | hkind <;> simp [readItem, hkind]

theorem readItem_byteArray (hkind : c.kind = .fixedString ∨ c.kind = .pascalString)
    (data : Bytes) : c.readItem (.array (data.map Json.ofByte)) = .ok (.bytes data) := by
  rw [readItem_array hkind, readBytes_ofByte]
  rfl

/-- The JSON form of a value is read for a slot of its class as the value, unless the value
is not finite. Byte strings as text must be UTF-8. -/
theorem readItem_toJsonAs (text : Bool) (htag : c.kind.tag? = some v.tag)
    (htext : text = true → ∀ data, v = .bytes data → Utf8.Valid data) :
    c.readItem (v.toJsonAs text) =
      if v.isFinite then .ok v else .error (.notNumber c .null) := by
  cases v with
  | int n =>
    have hkind : c.kind = .signed := Kind.eq_of_tag? htag
    simp [readItem, hkind, readInteger?_ofInt64 hkind, Value.isFinite]
  | uint n =>
    have hkind : c.kind = .unsigned := Kind.eq_of_tag? htag
    simp [readItem, hkind, readInteger?_natural hkind, Value.isFinite]
  | float x =>
    have hkind : c.kind = .float := Kind.eq_of_tag? htag
    rw [Value.toJsonAs_float, readItem_ofBinary64 hkind]
    rfl
  | bytes data =>
    have hkind : c.kind = .fixedString ∨ c.kind = .pascalString := Kind.eq_of_tag? htag
    rw [Value.toJsonAs_bytes]
    cases text with
    | false => exact readItem_byteArray hkind data
    | true =>
      have hback := (htext rfl data rfl).encode_decodeLossy
      rw [if_pos rfl, readItem_string hkind, hback]
      rfl

end Code
end BinaryRecord
