import BinaryRecord.Code.Encoding
import BinaryRecord.Proofs.Except
import BinaryRecord.Proofs.Word

/-!
# What a code stores

When a value is accepted and which word stands for it. An integer is accepted if it
lies in the code's range, which is where the balanced or the plain remainder by the
number of patterns leaves it alone.

## Main definitions

* `Code.floatBits`, `Code.Overflows`: the word of a number, and when it is refused.
* `Code.storedLength`: the length of what a code stores.
-/

namespace BinaryRecord.Code

theorem one_le_width (c : Code) : 1 ≤ c.width := by cases c <;> decide

theorem width_le (c : Code) : c.width ≤ 8 := by cases c <;> decide

theorem isPad_iff {c : Code} : c.isPad = true ↔ c.kind = .pad := by cases c <;> decide

/-! ## Ranges -/

theorem mem_range_signed_iff {c : Code} (hkind : c.kind = .signed) (n : ℤ) :
    (c.lowest ≤ n ∧ n ≤ c.highest) ↔ n.bmod (256 ^ c.width) = n := by
  cases c <;> simp [kind, entry] at hkind <;>
    simp [lowest, highest, isSigned, kind, width, entry, Int.bmod_def] <;> omega

theorem mem_range_unsigned_iff {c : Code} (hkind : c.kind = .unsigned) (n : ℤ) :
    (c.lowest ≤ n ∧ n ≤ c.highest) ↔ n % 256 ^ c.width = n := by
  cases c <;> simp [kind, entry] at hkind <;>
    simp [lowest, highest, isSigned, kind, width, entry] <;> omega


/-- Reading to the code's width or to 64 bits makes no difference to what it stores. -/
theorem bmod_width_eq {c : Code} {n : ℤ} (hkind : c.kind = .signed)
    (hin : c.width = 8 ∨ (c.lowest ≤ n ∧ n ≤ c.highest)) :
    n.bmod (256 ^ c.width) = n.bmod (2 ^ 64) := by
  rcases hin with h8 | hin
  · rw [h8]
    rfl
  · rw [(mem_range_signed_iff hkind n).mp hin]
    cases c <;> simp [kind, entry] at hkind <;>
      simp [lowest, highest, isSigned, kind, width, entry, Int.bmod_def] at hin ⊢ <;> omega

theorem emod_width_eq {c : Code} {n : ℤ} (hkind : c.kind = .unsigned)
    (hin : c.width = 8 ∨ (c.lowest ≤ n ∧ n ≤ c.highest)) :
    n % 256 ^ c.width = n % 2 ^ 64 := by
  rcases hin with h8 | hin
  · rw [h8]
    rfl
  · rw [(mem_range_unsigned_iff hkind n).mp hin]
    cases c <;> simp [kind, entry] at hkind <;>
      simp [lowest, highest, isSigned, kind, width, entry] at hin ⊢ <;> omega

/-! ## Accepted values -/

theorem integerWord_eq_ok_iff {c : Code} {v : Value} {w : UInt64} :
    c.integerWord v = .ok w ↔ ∃ n, v.integer? = some n ∧
      (c.width = 8 ∨ (c.lowest ≤ n ∧ n ≤ c.highest)) ∧ w = .ofInt n := by
  unfold integerWord
  cases h : v.integer? with
  | none => simp
  | some n =>
    by_cases hin : c.width = 8 ∨ (c.lowest ≤ n ∧ n ≤ c.highest)
    · simp only [if_pos hin, Except.ok.injEq, Option.some.injEq, exists_eq_left']
      exact ⟨fun hw => ⟨hin, hw.symm⟩, fun hw => hw.2.symm⟩
    · simp [hin]

/-- The word that stores a number unless it is too large. -/
def floatBits (c : Code) (x : Binary64) : UInt64 :=
  if c.width = 4 then x.narrow.bits.toUInt64 else x.bits

/-- Is the number finite and its nearest neighbour in the code's format not? -/
def Overflows (c : Code) (x : Binary64) : Prop :=
  c.width = 4 ∧ x.isFinite = true ∧ x.narrow.isFinite = false

theorem floatWord_float (c : Code) (x : Binary64) [Decidable (c.Overflows x)] :
    c.floatWord (.float x) =
      if c.Overflows x then .error (.floatTooLarge c) else .ok (c.floatBits x) := by
  by_cases h4 : c.width = 4
  · cases hfin : x.isFinite <;> cases hnarrow : x.narrow.isFinite <;>
      simp [floatWord, Value.float?, Overflows, floatBits, h4, hfin, hnarrow]
  · simp [floatWord, Value.float?, Overflows, floatBits, h4]

theorem floatWord_eq_ok_iff {c : Code} {v : Value} {w : UInt64} :
    c.floatWord v = .ok w ↔ ∃ x, v = .float x ∧ ¬ c.Overflows x ∧ w = c.floatBits x := by
  classical
  cases v with
  | float x =>
    rw [floatWord_float]
    by_cases hover : c.Overflows x
    · simp [hover]
    · simpa [hover] using eq_comm
  | int | uint | bytes => simp [floatWord, Value.float?]

theorem stringData_eq_ok_iff {c : Code} {v : Value} {data : Bytes} :
    c.stringData v = .ok data ↔ v = .bytes data := by
  cases v <;> simp [stringData, Value.bytes?]

/-! ## Units -/

/-- What data loses and what it is filled with, both told from what is kept of it. -/
theorem fixedUnit_eq_min (n : ℕ) (data : Bytes) :
    fixedUnit n data = data.take (min data.length n) ++ fill (n - min data.length n) := by
  have hkept : data.take (min data.length n) = data.take n := by
    rw [Nat.min_comm, ← List.take_take, List.take_length]
  have hfill : n - min data.length n = n - data.length := by omega
  rw [hkept, hfill, fixedUnit]

theorem length_fixedUnit (n : ℕ) (data : Bytes) : (fixedUnit n data).length = n := by
  rw [fixedUnit, List.length_append, List.length_take, length_fill]
  omega

theorem pascalRoom_le (n : ℕ) (data : Bytes) :
    pascalRoom n data ≤ data.length ∧ pascalRoom n data ≤ n - 1 ∧ pascalRoom n data < 256 := by
  simp only [pascalRoom, pascalLimit]
  omega

/-- The length byte holds the number of data bytes that are stored. -/
theorem toNat_ofNat_pascalRoom (n : ℕ) (data : Bytes) :
    (UInt8.ofNat (pascalRoom n data)).toNat = pascalRoom n data :=
  UInt8.toNat_ofNat_of_lt' (pascalRoom_le n data).2.2

theorem length_take_pascalRoom (n : ℕ) (data : Bytes) :
    (data.take (pascalRoom n data)).length = pascalRoom n data :=
  List.length_take_of_le (pascalRoom_le n data).1

/-- A unit with a length byte is never empty. -/
theorem length_pascalUnit (n : ℕ) (data : Bytes) : (pascalUnit n data).length = max n 1 := by
  have hroom := (pascalRoom_le n data).2.1
  rw [pascalUnit, List.cons_append, List.length_cons, List.length_append, length_take_pascalRoom,
    length_fill]
  omega

/-- The length of what a code stores if a unit of length `n` is asked for. -/
def storedLength (c : Code) (n : ℕ) : ℕ :=
  match c.kind with
  | .pad | .fixedString => n
  | .signed | .unsigned | .float => c.width
  | .pascalString => max n 1

theorem length_of_encode {c : Code} {n : ℕ} {o : ByteOrder} {v : Value} {unit : Bytes}
    (h : c.encode n o v = .ok unit) : unit.length = c.storedLength n := by
  unfold encode at h
  unfold storedLength
  cases hkind : c.kind <;> simp only [hkind] at h
  case pad =>
    obtain rfl := Except.ok.inj h
    exact length_fill n
  case signed | unsigned | float =>
    obtain ⟨w, -, rfl⟩ := Except.map_eq_ok_iff.mp h
    exact Word.length_toBytes c.width o w
  case fixedString =>
    obtain ⟨data, -, rfl⟩ := Except.map_eq_ok_iff.mp h
    exact length_fixedUnit n data
  case pascalString =>
    obtain ⟨data, -, rfl⟩ := Except.map_eq_ok_iff.mp h
    exact length_pascalUnit n data

/-- The length byte that is stored in front of data, and what stands behind it. -/
theorem exists_pascalUnit_of_encode {c : Code} {n : ℕ} {o : ByteOrder} {v : Value} {unit : Bytes}
    (hkind : c.kind = .pascalString) (h : c.encode n o v = .ok unit) :
    ∃ data count, v = .bytes data ∧
      unit = count :: data.take count.toNat ++ fill (n - (count.toNat + 1)) ∧
      count.toNat = min (min data.length (n - 1)) 255 := by
  simp only [encode, hkind] at h
  obtain ⟨data, hdata, rfl⟩ := Except.map_eq_ok_iff.mp h
  have hcount := toNat_ofNat_pascalRoom n data
  exact ⟨data, _, stringData_eq_ok_iff.mp hdata, by rw [hcount, pascalUnit], hcount⟩

theorem length_encode {c : Code} {count : ℕ} {o : ByteOrder} {v : Value} {unit : Bytes}
    (hcount : 1 ≤ count) (hpad : c.isPad = false) (h : c.encode count o v = .ok unit) :
    unit.length = if c.isString then count else c.width := by
  rw [length_of_encode h]
  cases c
  case pad => cases hpad
  case pascalString => exact Nat.max_eq_left hcount
  all_goals rfl

/-- Every unit that has a byte has a value, unless it is a pad. -/
theorem isSome_decode {c : Code} (hpad : c.isPad = false) (o : ByteOrder) {unit : Bytes}
    (hunit : unit ≠ []) : (c.decode o unit).isSome := by
  cases c with
  | pad => cases hpad
  | pascalString =>
    cases unit with
    | nil => exact absurd rfl hunit
    | cons n data => rfl
  | _ => rfl

end BinaryRecord.Code
