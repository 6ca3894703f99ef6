import BinaryRecord.Proofs.Checked.Basic
import BinaryRecord.Proofs.Word
import BinaryRecord.Proofs.Code.Stored

/-!
# Storing and reading a unit with checks

The ranges of the integer codes come from shifts, the bytes of a word are cut out of all eight,
and strings are filled up to the length of their unit. None of this traps for a code of the table
and a unit that is not empty.

## Main definitions

* `Checked.integerWord`, `Checked.fixedUnit`, `Checked.pascalUnit`: what stands for a value.
* `Checked.encode`, `Checked.decode`: storing and reading one unit.
-/

namespace BinaryRecord.Checked

-- Powers are those of the core library, whatever else is imported beside this module.
attribute [local instance (2000)] instPowNat

/-! ## Programs -/

/-- The range of an integer code, from shifts in numbers of 128 bits with their sign. -/
def range (c : Code) (bits : ℕ) : Run (ℤ × ℤ) :=
  if c.isSigned then do
    let amount ← shiftAmount 127 (← sub bits 1)
    return (-2 ^ amount, 2 ^ amount - 1)
  else do
    let amount ← shiftAmount 127 bits
    return (0, 2 ^ amount - 1)

/-- The word that stores an integer value, masked to the width of the code. -/
def integerWord (c : Code) (v : Value) : Run UInt64 :=
  match v.integer? with
  | none => .error (.fail (c.unsuitable v))
  | some n => do
    let bits ← mul 8 c.width
    if bits = 64 then return .ofInt n
    else
      let (lowest, highest) ← range c bits
      if n < lowest ∨ highest < n then .error (.fail (.outOfRange c n))
      else
        let mask ← sub (2 ^ (← shiftAmount 64 bits)) 1
        return .ofInt n &&& .ofNat mask

/-- The low bytes of a word, cut out of its bytes in big-endian order. -/
def wordBytes (width : ℕ) (o : ByteOrder) (w : UInt64) : Run Bytes := do
  let all := Word.toBytes 8 .big w
  let low ← slice all (← sub all.length width) all.length
  return match o with
    | .big => low
    | .little => low.reverse

/-- Data cut to the length of its unit, with fill for what is left of it. -/
def fixedUnit (unitLength : ℕ) (data : Bytes) : Run Bytes := do
  let n := min data.length unitLength
  let kept ← slice data 0 n
  return kept ++ fill (← sub unitLength n)

/-- A length byte, the data it announces, and fill for what is left of the unit. -/
def pascalUnit (unitLength : ℕ) (data : Bytes) : Run Bytes := do
  let n := Code.pascalRoom unitLength data
  let kept ← slice data 0 n
  return (← byte n) :: kept ++ fill (← sub unitLength (← add n 1))

/-- The bytes of one unit. -/
def encode (c : Code) (unitLength : ℕ) (o : ByteOrder) (v : Value) : Run Bytes :=
  match c.kind with
  | .pad => .ok (fill unitLength)
  | .signed | .unsigned => do wordBytes c.width o (← integerWord c v)
  | .float => do wordBytes c.width o (← lift (c.floatWord v))
  | .fixedString => do fixedUnit unitLength (← lift (c.stringData v))
  | .pascalString => do pascalUnit unitLength (← lift (c.stringData v))

/-- The value of one unit. Signed numbers are shifted up and down again. -/
def decode (c : Code) (o : ByteOrder) (unit : Bytes) : Run (Option Value) :=
  match c.kind, unit with
  | .signed, _ => do
    let amount ← shiftAmount 64 (← sub 64 (← mul 8 c.width))
    let w := Word.ofBytes o unit <<< UInt64.ofNat amount
    return some (.int (w.toInt64 >>> Int64.ofNat amount))
  | .pascalString, n :: data => do
    let kept ← slice data 0 (min n.toNat data.length)
    return some (.bytes kept)
  | _, _ => .ok (c.decode o unit)

/-! ## No traps -/

theorem mul_width (c : Code) : mul 8 c.width = .ok (8 * c.width) := by
  have hle := c.width_le
  exact mul_eq (by unfold wordLimit; omega)

/-- The shifts give the range of the code. -/
theorem range_eq (c : Code) : range c (8 * c.width) = .ok (c.lowest, c.highest) := by
  have hone := c.one_le_width
  have hle := c.width_le
  unfold range Code.lowest Code.highest
  cases c.isSigned with
  | true =>
    simp only [if_true, sub_eq (show 1 ≤ 8 * c.width by omega),
      shiftAmount_eq (show 8 * c.width - 1 < 127 by omega), ok_bind]
    rfl
  | false =>
    simp only [Bool.false_eq_true, if_false, shiftAmount_eq (show 8 * c.width < 127 by omega),
      ok_bind]
    rfl

/-- A mask of the low bytes leaves these bytes alone. -/
theorem toBytes_mask {width : ℕ} (hlt : width < 8) (o : ByteOrder) (w : UInt64) :
    Word.toBytes width o (w &&& .ofNat (2 ^ (8 * width) - 1)) = Word.toBytes width o w := by
  have hpow : 2 ^ (8 * width) = 256 ^ width := by rw [pow_mul]; norm_num
  have hword : 2 ^ (8 * width) ≤ 2 ^ 56 := Nat.pow_le_pow_right (by decide) (by omega)
  have hmask : (UInt64.ofNat (2 ^ (8 * width) - 1)).toNat = 2 ^ (8 * width) - 1 := by
    rw [UInt64.toNat_ofNat']
    omega
  apply Word.toBytes_congr hlt.le
  rw [UInt64.toNat_and, hmask, Nat.and_two_pow_sub_one_eq_mod, hpow, Nat.mod_mod]

/-- The word that is written is that of the value, but for bytes beyond the width. -/
theorem integerWord_bind (c : Code) (o : ByteOrder) (v : Value) :
    (integerWord c v >>= fun w => .ok (Word.toBytes c.width o w)) =
      lift ((c.integerWord v).map (Word.toBytes c.width o)) := by
  have hle := c.width_le
  unfold integerWord Code.integerWord
  cases v.integer? with
  | none => rfl
  | some n =>
    simp only [mul_width, ok_bind]
    by_cases h8 : c.width = 8
    · simp only [h8, true_or, if_true]
      rfl
    have hbits : 8 * c.width ≠ 64 := by omega
    have hpos : 1 ≤ 2 ^ (8 * c.width) := Nat.one_le_two_pow
    simp only [h8, false_or, if_neg hbits, range_eq, ok_bind]
    by_cases hrange : c.lowest ≤ n ∧ n ≤ c.highest
    · have hnot : ¬ (n < c.lowest ∨ c.highest < n) := by omega
      simp only [if_pos hrange, if_neg hnot, shiftAmount_eq (show 8 * c.width < 64 by omega),
        ok_bind, sub_eq hpos]
      exact congrArg Except.ok (toBytes_mask (by omega) o _)
    · have hout : n < c.lowest ∨ c.highest < n := by omega
      simp only [if_neg hrange, if_pos hout]
      rfl

theorem wordBytes_eq {width : ℕ} (hle : width ≤ 8) (o : ByteOrder) (w : UInt64) :
    wordBytes width o w = .ok (Word.toBytes width o w) := by
  have hlow : ((Word.toBytes 8 .big w).take 8).drop (8 - width) = Word.toBytes width .big w := by
    have htake : 8 - (8 - width) = width := by omega
    rw [List.take_of_length_le (by simp), Word.toBytes, ByteOrder.arrange, List.drop_reverse,
      List.length_map, List.length_range, htake, ← List.map_take, List.take_range,
      Nat.min_eq_left hle]
    rfl
  unfold wordBytes
  simp only [Word.length_toBytes, sub_eq hle, ok_bind,
    slice_eq (Nat.sub_le 8 width) (Word.length_toBytes 8 .big w).ge, hlow]
  cases o with
  | big => rfl
  | little => exact congrArg Except.ok (Word.toBytes_flip width .big w).symm

theorem fixedUnit_eq (n : ℕ) (data : Bytes) :
    fixedUnit n data = .ok (Code.fixedUnit n data) := by
  rw [Code.fixedUnit_eq_min]
  simp only [fixedUnit, slice_eq (Nat.zero_le _) (Nat.min_le_left data.length n),
    sub_eq (Nat.min_le_right data.length n), ok_bind, List.drop_zero]
  rfl

/-- The length of the data fits its byte, and the length byte and the data fit the unit. -/
theorem pascalUnit_eq {n : ℕ} (hn : 1 ≤ n) (data : Bytes) :
    pascalUnit n data = .ok (Code.pascalUnit n data) := by
  obtain ⟨hdata, hroom, hbyte⟩ := Code.pascalRoom_le n data
  have hunit : Code.pascalRoom n data + 1 ≤ n := by omega
  have hword : Code.pascalRoom n data + 1 < wordLimit := by
    unfold wordLimit
    omega
  simp only [pascalUnit, slice_eq (Nat.zero_le _) hdata, byte_eq hbyte, add_eq hword, sub_eq hunit,
    ok_bind, List.drop_zero]
  rfl

/-- Storing a value in a unit that is not empty does not trap. -/
theorem encode_eq {n : ℕ} (hn : 1 ≤ n) (c : Code) (o : ByteOrder) (v : Value) :
    encode c n o v = lift (c.encode n o v) := by
  unfold encode Code.encode
  cases c.kind with
  | pad => rfl
  | signed | unsigned =>
    simp only [wordBytes_eq c.width_le]
    exact integerWord_bind c o v
  | float =>
    simp only [wordBytes_eq c.width_le]
    cases c.floatWord v <;> rfl
  | fixedString =>
    simp only [fixedUnit_eq]
    cases c.stringData v <;> rfl
  | pascalString =>
    simp only [pascalUnit_eq hn]
    cases c.stringData v <;> rfl

/-- Reading a unit does not trap. -/
theorem decode_eq (c : Code) (o : ByteOrder) (unit : Bytes) :
    decode c o unit = .ok (c.decode o unit) := by
  have hone := c.one_le_width
  have hle := c.width_le
  unfold decode
  split
  · next hkind =>
    simp only [mul_width, ok_bind, sub_eq (show 8 * c.width ≤ 64 by omega),
      shiftAmount_eq (show 64 - 8 * c.width < 64 by omega)]
    simp only [Code.decode, hkind]
    rfl
  · next n data hkind =>
    have hkept : data.take (min n.toNat data.length) = data.take n.toNat := by
      rw [← List.take_take, List.take_length]
    simp only [slice_eq (Nat.zero_le _) (Nat.min_le_right n.toNat data.length), ok_bind,
      List.drop_zero, hkept]
    simp only [Code.decode, hkind]
    rfl
  · rfl

end BinaryRecord.Checked
