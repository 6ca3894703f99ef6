import Mathlib.Algebra.Order.Field.Power
import Mathlib.Algebra.Order.Field.Rat
import Mathlib.Tactic.FieldSimp
import Mathlib.Tactic.Positivity
import Mathlib.Tactic.Ring
import BinaryRecord.Proofs.Floating.Conversion

/-!
# The values of the two formats

A finite number of an interchange format is told by its sign, its biased exponent and its
trailing fraction bits. These give a rational number, whose absolute value is the number's units
by the weight of one.

## Main definitions

* `fieldsValue`: the rational number that the fields of a finite number stand for.
* `Binary64.value`, `Binary32.value`: the value of a finite number.
-/

namespace BinaryRecord

/-- The factor of a sign. -/
def signFactor (negative : Bool) : ℚ := if negative then -1 else 1

/-- The value of a finite number by its fields. With the least exponent the number is subnormal
and nothing stands before the point, else a one does. -/
def fieldsValue (fraction bias : ℕ) (negative : Bool) (exponent trailing : ℕ) : ℚ :=
  signFactor negative *
    (((if exponent = 0 then 0 else 1) + trailing / 2 ^ fraction) *
      2 ^ ((max exponent 1 : ℤ) - bias))

/-- The value of a finite number by the units of its pattern. -/
theorem fieldsValue_eq {fraction : ℕ} (bias : ℕ) (negative : Bool) (exponent : ℕ) {trailing : ℕ}
    (h : trailing < 2 ^ fraction) :
    fieldsValue fraction bias negative exponent trailing =
      signFactor negative * (Grid.units fraction (exponent * 2 ^ fraction + trailing) *
        2 ^ (1 - bias - fraction : ℤ)) := by
  have htwo : (2 : ℚ) ≠ 0 := two_ne_zero
  rw [fieldsValue]
  congr 1
  rcases Nat.eq_zero_or_pos exponent with rfl | hpos
  · have hweight : (2 : ℚ) ^ ((max (0 : ℕ) 1 : ℤ) - bias) =
        2 ^ (fraction : ℤ) * 2 ^ (1 - bias - fraction : ℤ) := by
      rw [← zpow_add₀ htwo]
      congr 1
      norm_num
    rw [Nat.zero_mul, Nat.zero_add, Grid.units_of_lt h, hweight, if_pos rfl, zpow_natCast]
    field_simp
    ring
  · obtain ⟨binade, rfl⟩ := Nat.exists_eq_add_of_lt hpos
    have hweight : (2 : ℚ) ^ ((max (0 + binade + 1 : ℕ) 1 : ℤ) - bias) =
        2 ^ (fraction : ℤ) * 2 ^ (binade : ℤ) * 2 ^ (1 - bias - fraction : ℤ) := by
      rw [← zpow_add₀ htwo, ← zpow_add₀ htwo]
      congr 1
      push_cast
      omega
    have hsplit : (0 + binade + 1) * 2 ^ fraction + trailing =
        binade * 2 ^ fraction + (2 ^ fraction + trailing) := by ring
    rw [hsplit, Grid.units_binade fraction binade (Nat.le_add_right _ _)
      (by rw [pow_succ]; omega), hweight, if_neg (by omega), zpow_natCast, zpow_natCast]
    push_cast
    field_simp

namespace Binary64

/-- The exponent field. -/
def biasedExponent (x : Binary64) : ℕ := x.bits.toNat / 2 ^ 52 % 2 ^ 11

/-- The fraction field. -/
def trailing (x : Binary64) : ℕ := x.bits.toNat % 2 ^ 52

/-- The value of a finite number. -/
def value (x : Binary64) : ℚ := fieldsValue 52 1023 x.negative x.biasedExponent x.trailing

/-- Positive or negative infinity. -/
def isInfinite (x : Binary64) : Bool := x.magnitude = infinity

/-- The weight of one unit. -/
def unit : ℚ := 2 ^ (-1074 : ℤ)

theorem unit_pos : 0 < unit := by
  unfold unit
  positivity

theorem magnitude_eq (x : Binary64) : x.magnitude = x.biasedExponent * 2 ^ 52 + x.trailing := by
  rw [magnitude, signBit, biasedExponent, trailing]
  omega

theorem isFinite_iff {x : Binary64} : x.isFinite ↔ x.magnitude < infinity := decide_eq_true_iff

theorem isInfinite_iff {x : Binary64} : x.isInfinite ↔ x.magnitude = infinity := decide_eq_true_iff

theorem isNaN_iff {x : Binary64} : x.isNaN ↔ infinity < x.magnitude := decide_eq_true_iff

/-- Above infinity the fraction counts the patterns from there on. -/
theorem magnitude_of_isNaN {x : Binary64} (h : x.isNaN) : x.magnitude = infinity + x.trailing := by
  have hlt := x.magnitude_lt
  have hgt := isNaN_iff.mp h
  rw [magnitude, trailing, infinity, signBit] at *
  omega

theorem value_eq (x : Binary64) : x.value = signFactor x.negative * (x.units * unit) := by
  have htrailing : x.trailing < 2 ^ 52 := Nat.mod_lt _ (by decide)
  rw [value, fieldsValue_eq _ _ _ htrailing, ← magnitude_eq, units, fraction, unit]
  norm_num

end Binary64

namespace Binary32

/-- The exponent field. -/
def biasedExponent (x : Binary32) : ℕ := x.bits.toNat / 2 ^ 23 % 2 ^ 8

/-- The fraction field. -/
def trailing (x : Binary32) : ℕ := x.bits.toNat % 2 ^ 23

/-- The value of a finite number. -/
def value (x : Binary32) : ℚ := fieldsValue 23 127 x.negative x.biasedExponent x.trailing

/-- Positive or negative infinity. -/
def isInfinite (x : Binary32) : Bool := x.magnitude = infinity

theorem magnitude_eq (x : Binary32) : x.magnitude = x.biasedExponent * 2 ^ 23 + x.trailing := by
  rw [magnitude, signBit, biasedExponent, trailing]
  omega

theorem isFinite_iff {x : Binary32} : x.isFinite ↔ x.magnitude < infinity := decide_eq_true_iff

theorem isInfinite_iff {x : Binary32} : x.isInfinite ↔ x.magnitude = infinity := decide_eq_true_iff

theorem isNaN_iff {x : Binary32} : x.isNaN ↔ infinity < x.magnitude := decide_eq_true_iff

/-- Above infinity the fraction counts the patterns from there on. -/
theorem magnitude_of_isNaN {x : Binary32} (h : x.isNaN) : x.magnitude = infinity + x.trailing := by
  have hlt := x.magnitude_lt
  have hgt := isNaN_iff.mp h
  rw [magnitude, trailing, infinity, signBit] at *
  omega

/-- The weight of a unit of the 32-bit format. -/
theorem unitRatio_mul_unit : (unitRatio : ℚ) * Binary64.unit = 2 ^ (-149 : ℤ) := by
  have hpow : ∀ n : ℕ, ((2 ^ n : ℕ) : ℚ) = 2 ^ (n : ℤ) := by
    intro n
    rw [Nat.cast_pow, Nat.cast_ofNat, zpow_natCast]
  obtain ⟨n, hn⟩ : ∃ n, n = 925 := ⟨_, rfl⟩
  rw [unitRatio, ← hn, hpow n, Binary64.unit, ← zpow_add₀ two_ne_zero, hn]
  norm_num

theorem value_eq (x : Binary32) :
    x.value = signFactor x.negative * ((x.units * unitRatio : ℕ) * Binary64.unit) := by
  have htrailing : x.trailing < 2 ^ 23 := Nat.mod_lt _ (by decide)
  have hweight : (1 - (127 : ℕ) - (23 : ℕ) : ℤ) = -149 := by norm_num
  rw [value, fieldsValue_eq _ _ _ htrailing, ← magnitude_eq, hweight, ← unitRatio_mul_unit, units,
    fraction, Nat.cast_mul, mul_assoc]

end Binary32
end BinaryRecord
