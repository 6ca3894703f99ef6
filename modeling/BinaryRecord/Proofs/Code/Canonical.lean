import BinaryRecord.Proofs.Code.Stored

/-!
# The value that comes back

A value that was stored under a code is read back in canonical form: integers as
the code's own class, numbers at the code's precision, strings at their length.

## Main definitions

* `Code.canonical`: the value that comes back.
-/

namespace BinaryRecord.Code

/-- An integer as the code's values are read: modulo `2 ^ 64`, signed or unsigned. -/
def integer (c : Code) (n : ℤ) : Value :=
  if c.isSigned then .int (.ofInt n) else .uint (.ofInt n)

/-- The data of a string as it comes back: a string behind a length byte loses what has
no room, any other is cut or filled to its length. -/
def keptData (c : Code) (count : ℕ) (data : Bytes) : Bytes :=
  match c.kind with
  | .pascalString => data.take (min (min data.length (count - 1)) 255)
  | _ => (data.take count).rightpad count 0

/-- The value that comes back for a value stored under a code with a repeat count. -/
def canonical (c : Code) (count : ℕ) : Value → Value
  | .int n => c.integer n.toInt
  | .uint n => c.integer n.toNat
  | .float x => .float (if c.width = 4 then x.narrow.widen else x)
  | .bytes data => .bytes (c.keptData count data)

theorem canonical_of_integer? {c : Code} {count : ℕ} {v : Value} {n : ℤ}
    (h : v.integer? = some n) : c.canonical count v = c.integer n := by
  cases v <;> simp_all [Value.integer?, canonical]

theorem decode_toBytes_signed {c : Code} {n : ℤ} (hkind : c.kind = .signed) (o : ByteOrder)
    (hin : c.width = 8 ∨ (c.lowest ≤ n ∧ n ≤ c.highest)) :
    c.decode o (Word.toBytes c.width o (.ofInt n)) = some (c.integer n) := by
  have hback : Word.signExtend c.width (Word.ofBytes o (Word.toBytes c.width o (.ofInt n))) =
      .ofInt n := by
    rw [← Int64.toInt_inj, Word.toInt_signExtend_toBytes o n c.one_le_width c.width_le,
      Int64.toInt_ofInt, bmod_width_eq hkind hin]
    rfl
  simp [decode, hkind, hback, integer, isSigned]

theorem decode_toBytes_unsigned {c : Code} {n : ℤ} (hkind : c.kind = .unsigned) (o : ByteOrder)
    (hin : c.width = 8 ∨ (c.lowest ≤ n ∧ n ≤ c.highest)) :
    c.decode o (Word.toBytes c.width o (.ofInt n)) = some (c.integer n) := by
  have hback : Word.ofBytes o (Word.toBytes c.width o (.ofInt n)) = .ofInt n := by
    rw [← UInt64.toNat_inj, ← Int.natCast_inj, Word.toNat_ofBytes_toBytes_ofInt o n c.width_le,
      Word.toNat_ofInt, emod_width_eq hkind hin]
  simp [decode, hkind, hback, integer, isSigned]

theorem ofBytes_toBytes_floatBits {c : Code} (hkind : c.kind = .float) (o : ByteOrder)
    (x : Binary64) : Word.ofBytes o (Word.toBytes c.width o (c.floatBits x)) = c.floatBits x := by
  have hlt : (c.floatBits x).toNat < 256 ^ c.width := by
    cases c <;> simp [kind, entry] at hkind
    · exact x.narrow.bits.toNat_lt
    · exact x.bits.toNat_lt
  rw [← UInt64.toNat_inj, Word.toNat_ofBytes_toBytes o _ c.width_le, Nat.mod_eq_of_lt hlt]

theorem decode_toBytes_float {c : Code} (hkind : c.kind = .float) (o : ByteOrder) (x : Binary64) :
    c.decode o (Word.toBytes c.width o (c.floatBits x)) =
      some (.float (if c.width = 4 then x.narrow.widen else x)) := by
  simp only [decode, hkind, ofBytes_toBytes_floatBits hkind]
  by_cases h4 : c.width = 4 <;> simp [floatBits, h4]

theorem fixedUnit_eq_rightpad (count : ℕ) (data : Bytes) :
    fixedUnit count data = (data.take count).rightpad count 0 := by
  have hroom : count - (data.take count).length = count - data.length := by
    rw [List.length_take]
    omega
  rw [fixedUnit, List.rightpad, hroom]
  rfl

theorem pascalData_pascalUnit (count : ℕ) (data : Bytes) :
    pascalData (pascalUnit count data) = some (data.take (pascalRoom count data)) := by
  rw [pascalUnit, List.cons_append, pascalData, toNat_ofNat_pascalRoom,
    List.take_left' (length_take_pascalRoom count data)]

/-- What was stored is read back in canonical form. -/
theorem decode_encode {c : Code} {count : ℕ} {o : ByteOrder} {v : Value} {unit : Bytes}
    (hpad : c.isPad = false) (h : c.encode count o v = .ok unit) :
    c.decode o unit = some (c.canonical count v) := by
  unfold encode at h
  cases hkind : c.kind with
  | pad => simp [isPad_iff.mpr hkind] at hpad
  | signed =>
    simp only [hkind] at h
    obtain ⟨w, hw, rfl⟩ := Except.map_eq_ok_iff.mp h
    obtain ⟨n, hn, hin, rfl⟩ := integerWord_eq_ok_iff.mp hw
    rw [decode_toBytes_signed hkind o hin, canonical_of_integer? hn]
  | unsigned =>
    simp only [hkind] at h
    obtain ⟨w, hw, rfl⟩ := Except.map_eq_ok_iff.mp h
    obtain ⟨n, hn, hin, rfl⟩ := integerWord_eq_ok_iff.mp hw
    rw [decode_toBytes_unsigned hkind o hin, canonical_of_integer? hn]
  | float =>
    simp only [hkind] at h
    obtain ⟨w, hw, rfl⟩ := Except.map_eq_ok_iff.mp h
    obtain ⟨x, rfl, -, rfl⟩ := floatWord_eq_ok_iff.mp hw
    exact decode_toBytes_float hkind o x
  | fixedString =>
    simp only [hkind] at h
    obtain ⟨data, hdata, rfl⟩ := Except.map_eq_ok_iff.mp h
    obtain rfl := stringData_eq_ok_iff.mp hdata
    simp [decode, hkind, canonical, keptData, fixedUnit_eq_rightpad]
  | pascalString =>
    simp only [hkind] at h
    obtain ⟨data, hdata, rfl⟩ := Except.map_eq_ok_iff.mp h
    obtain rfl := stringData_eq_ok_iff.mp hdata
    simp [decode, hkind, canonical, keptData, pascalData_pascalUnit, pascalRoom, pascalLimit]

/-- Codes of up to 32 bits give an integer back as the same integer. -/
theorem integer?_canonical {c : Code} {count : ℕ} {o : ByteOrder} {v : Value} {unit : Bytes}
    (h : c.encode count o v = .ok unit) (hkind : c.kind = .signed ∨ c.kind = .unsigned)
    (hwidth : c.width < 8) : (c.canonical count v).integer? = v.integer? := by
  have hmap : (c.integerWord v).map (Word.toBytes c.width o) = .ok unit := by
    rcases hkind with hkind | hkind <;> simpa [encode, hkind] using h
  obtain ⟨w, hw, -⟩ := Except.map_eq_ok_iff.mp hmap
  obtain ⟨n, hn, hin, -⟩ := integerWord_eq_ok_iff.mp hw
  rw [canonical_of_integer? hn, hn, integer]
  rcases hkind with hkind | hkind
  · have hmod := bmod_width_eq hkind hin
    rw [(mem_range_signed_iff hkind n).mp (hin.resolve_left hwidth.ne)] at hmod
    have hback : (Int64.ofInt n).toInt = n := by
      rw [Int64.toInt_ofInt]
      exact hmod.symm
    simp [isSigned, hkind, Value.integer?, hback]
  · have hmod := emod_width_eq hkind hin
    rw [(mem_range_unsigned_iff hkind n).mp (hin.resolve_left hwidth.ne)] at hmod
    have hback : ((UInt64.ofInt n).toNat : ℤ) = n := by
      rw [Word.toNat_ofInt]
      exact hmod.symm
    simp [isSigned, hkind, Value.integer?, hback]

end BinaryRecord.Code
