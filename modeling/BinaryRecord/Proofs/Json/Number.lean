import BinaryRecord.Proofs.Floating.Rounding
import BinaryRecord.Proofs.Json.Item

/-!
# JSON numbers

A number of a JSON text is an integer of a machine word or a floating-point number. Under an
integer code it keeps its integer, in one class or the other, and under a floating-point code an
integer is rounded to the nearest number.

## Main definitions

* `JsonNumber.integer?`, `Json.integer?`: the integer of a number that is held as one.
* `Binary64.IsNearest`: no number is nearer to a rational, and a tie leaves an even one.
* `JsonNumber.RoundsTo`: a number and what is read of it under a floating-point code.
-/

namespace BinaryRecord

/-- The integer of a number that is held as one. -/
def JsonNumber.integer? : JsonNumber → Option ℤ
  | natural n => some n.toNat
  | negative n _ => some n.toInt
  | float .. => none

/-- The integer of a JSON number that is held as one. -/
def Json.integer? : Json → Option ℤ
  | number n => n.integer?
  | _ => none

/-! ## The nearest number -/

namespace Binary64

/-- A finite number is nearest to a rational: no other is nearer, and if one is as near, this one
has an even fraction. -/
structure IsNearest (x : Binary64) (q : ℚ) : Prop where
  isFinite : x.isFinite
  abs_sub_le : ∀ z : Binary64, z.isFinite → |q - x.value| ≤ |q - z.value|
  even_of_tie : ∀ z : Binary64, z.isFinite → z.value ≠ x.value →
    |q - z.value| = |q - x.value| → Even x.trailing

theorem even_trailing_iff (x : Binary64) : Even x.trailing ↔ Even x.magnitude := by
  rw [magnitude_eq, Nat.even_iff, Nat.even_iff]
  omega

/-- What is nearest on the grid is nearest among the values. -/
theorem isNearest_of_units {x : Binary64} {num : ℕ} (hfinite : x.isFinite)
    (h : Grid.IsNearest fraction num 1 x.magnitude) :
    x.IsNearest (signFactor x.negative * (num * unit)) := by
  have hvalue : ∀ z : Binary64, z.value =
      signFactor z.negative * ((Grid.units fraction z.magnitude * 1 : ℕ) * unit) := by
    intro z
    rw [Nat.mul_one, value_eq, units]
  refine ⟨hfinite, ?_, ?_⟩
  · intro z _
    rw [hvalue, hvalue]
    exact h.abs_sub_le unit_pos.le _ _ _
  · intro z _ hne htie
    rw [hvalue, hvalue] at hne htie
    exact (even_trailing_iff x).mpr (h.even_of_abs_sub_eq unit_pos hne htie)

theorem unitsInOne_mul_unit : (unitsInOne : ℚ) * unit = 1 := by
  obtain ⟨k, hk⟩ : ∃ k, k = 1074 := ⟨_, rfl⟩
  rw [unitsInOne, ← hk, Nat.cast_pow, Nat.cast_ofNat, ← zpow_natCast, unit,
    ← zpow_add₀ two_ne_zero, hk]
  norm_num

/-- An integer by its sign and its units. -/
theorem intCast_eq (n : ℤ) :
    (n : ℚ) = signFactor (n < 0) * ((n.natAbs * unitsInOne : ℕ) * unit) := by
  rw [Nat.cast_mul, mul_assoc, unitsInOne_mul_unit, mul_one, Nat.cast_natAbs]
  rcases lt_or_ge n 0 with hneg | hpos
  · simp [signFactor, hneg, abs_of_neg hneg]
  · simp [signFactor, not_lt.mpr hpos, abs_of_nonneg hpos]

variable {n : ℤ}

theorem sign_magnitude_ofInt (h : n.natAbs < 2 ^ 64) : (ofInt n).negative = decide (n < 0) ∧
    (ofInt n).magnitude = Grid.nearest fraction (n.natAbs * unitsInOne) 1 := by
  have hfinite := isFinite_iff.mp (isFinite_ofInt h)
  have hsign : round (n.natAbs * unitsInOne) 1 < signBit :=
    (Nat.min_le_left _ _).trans_lt infinity_lt_signBit
  rw [ofInt, magnitude_ofMagnitude _ hsign] at hfinite
  rw [ofInt, negative_ofMagnitude _ hsign, magnitude_ofMagnitude _ hsign, round]
  rw [round] at hfinite
  exact ⟨rfl, by omega⟩

/-- An integer of a machine word is rounded to the nearest number. -/
theorem isNearest_ofInt (h : n.natAbs < 2 ^ 64) : (ofInt n).IsNearest n := by
  obtain ⟨hsign, hmagnitude⟩ := sign_magnitude_ofInt h
  rw [intCast_eq, ← hsign]
  apply isNearest_of_units (isFinite_ofInt h)
  rw [hmagnitude]
  exact Grid.isNearest_nearest (by decide) Nat.one_pos

end Binary64

/-! ## Numbers under a code -/

namespace JsonNumber
variable {n : JsonNumber} {i : ℤ}

/-- A number and what is read of it under a floating-point code: the nearest one to an integer,
with its sign, and else the same. -/
structure RoundsTo (n : JsonNumber) (x : Binary64) : Prop where
  isNearest : ∀ i : ℤ, n.integer? = some i → x.IsNearest i ∧ x.negative = decide (i < 0)
  eq_float : ∀ y finite, n = .float y finite → x = y

theorem natAbs_lt (h : n.integer? = some i) : i.natAbs < 2 ^ 64 := by
  cases n with
  | natural n =>
    obtain rfl := Option.some.inj h
    exact n.toNat_lt
  | negative n _ =>
    have hlow := n.le_toInt
    have hhigh := n.toInt_lt
    obtain rfl := Option.some.inj h
    omega
  | float => cases h

theorem toBinary64_of_integer? (h : n.integer? = some i) : n.toBinary64 = .ofInt i := by
  cases n with
  | natural n | negative n _ =>
    obtain rfl := Option.some.inj h
    rfl
  | float => cases h

theorem roundsTo_toBinary64 (n : JsonNumber) : n.RoundsTo n.toBinary64 where
  isNearest i h := by
    rw [toBinary64_of_integer? h]
    exact ⟨Binary64.isNearest_ofInt (natAbs_lt h), (Binary64.sign_magnitude_ofInt (natAbs_lt h)).1⟩
  eq_float := by
    rintro y finite rfl
    rfl

end JsonNumber

/-- Under an integer code a number keeps its integer, in the class that the code prefers. -/
theorem Code.map_integer?_readInteger? (c : Code) (n : JsonNumber) :
    (c.readInteger? n).map Value.integer? = n.integer?.map some := by
  cases n with
  | natural n =>
    by_cases h : n < 0x8000000000000000
    · cases hsigned : c.isSigned <;>
        simp [readInteger?, JsonNumber.int64?, JsonNumber.uint64?, JsonNumber.integer?, h, hsigned,
          Value.integer?, Word.toInt_toInt64 h]
    · simp [readInteger?, JsonNumber.int64?, JsonNumber.uint64?, JsonNumber.integer?, h,
        Value.integer?]
  | negative n _ => rfl
  | float => rfl

theorem Code.integer?_of_readInteger? {c : Code} {n : JsonNumber} {v : Value}
    (h : c.readInteger? n = some v) : ∃ i, n.integer? = some i ∧ v.integer? = some i := by
  have hinteger := c.map_integer?_readInteger? n
  rw [h, Option.map_some] at hinteger
  obtain ⟨i, hi, hv⟩ := Option.map_eq_some_iff.mp hinteger.symm
  exact ⟨i, hi, hv.symm⟩

theorem Code.exists_readInteger? (c : Code) {n : JsonNumber} {i : ℤ} (h : n.integer? = some i) :
    ∃ v, c.readInteger? n = some v := by
  have hinteger := c.map_integer?_readInteger? n
  rw [h, Option.map_some] at hinteger
  obtain ⟨v, hv, -⟩ := Option.map_eq_some_iff.mp hinteger
  exact ⟨v, hv⟩

/-- What is read as a byte is an integer that fits one. -/
theorem Json.byte?_eq_some_iff {item : Json} {b : UInt8} :
    item.byte? = some b ↔ item.integer? = some (b.toNat : ℤ) := by
  have hlt : b.toNat < 256 := b.toNat_lt
  cases item with
  | number n =>
    cases n with
    | natural n =>
      simp only [byte?, JsonNumber.uint64?, integer?, JsonNumber.integer?, Option.some.injEq,
        Nat.cast_inj]
      by_cases h : n.toNat < 256
      · rw [if_pos h, Option.some.injEq, ← UInt8.toNat_inj, UInt64.toNat_toUInt8,
          Nat.mod_eq_of_lt h]
      · rw [if_neg h]
        exact iff_of_false (Option.some_ne_none b).symm (by omega)
    | negative n hneg =>
      have hneg' : n.toInt < 0 := Int64.lt_iff_toInt_lt.mp hneg
      simp only [byte?, JsonNumber.uint64?, integer?, JsonNumber.integer?, Option.some.injEq]
      exact iff_of_false (Option.some_ne_none b).symm (by omega)
    | float => simp [byte?, JsonNumber.uint64?, integer?, JsonNumber.integer?]
  | _ => simp [byte?, integer?]

end BinaryRecord
