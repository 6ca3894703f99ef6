import BinaryRecord.Proofs.Floating.Nearest
import BinaryRecord.Proofs.Floating.Value

/-!
# Rounding to the 32-bit format

Narrowing is correct rounding. The distance between two values is at least that of their units,
and is that distance if the signs agree, so the pattern nearest on the grid gives the nearest
value. A number becomes infinite from the middle on between the largest finite value and the
next one on the grid, for the largest one is odd.

## Main definitions

* `Binary32.IsNearest`: no value of the format is nearer to a number; a tie leaves an even one.
* `Binary64.RoundsTo`: a number of the 64-bit format and what is left of it in the 32-bit format.
* `Binary32.ExtendsTo`: a number of the 32-bit format and the same in the 64-bit format.
-/

namespace BinaryRecord

/-! ## Distances -/

theorem abs_signFactor (negative : Bool) : |signFactor negative| = 1 := by
  cases negative <;> simp [signFactor]

theorem cast_dist (a b : ℕ) : (Nat.dist a b : ℚ) = |(a : ℚ) - b| := by
  rcases Nat.le_total a b with hle | hle
  · rw [Nat.dist_eq_sub_of_le hle, Nat.cast_sub hle, abs_sub_comm, abs_of_nonneg]
    exact sub_nonneg.mpr (Nat.cast_le.mpr hle)
  · rw [Nat.dist_eq_sub_of_le_right hle, Nat.cast_sub hle, abs_of_nonneg]
    exact sub_nonneg.mpr (Nat.cast_le.mpr hle)

section
variable (negative negative' : Bool) (a b : ℕ) {u : ℚ}

theorem abs_signFactor_mul (hu : 0 ≤ u) : |signFactor negative * (a * u)| = a * u := by
  rw [abs_mul, abs_signFactor, one_mul, abs_of_nonneg (mul_nonneg a.cast_nonneg hu)]

theorem abs_sub_of_sign_eq (hu : 0 ≤ u) :
    |signFactor negative * (a * u) - signFactor negative * (b * u)| = Nat.dist a b * u := by
  rw [← mul_sub, ← sub_mul, abs_mul, abs_mul, abs_signFactor, one_mul, cast_dist, abs_of_nonneg hu]

variable {negative negative'} in
theorem abs_sub_of_sign_ne (hne : negative ≠ negative') (hu : 0 ≤ u) :
    |signFactor negative * (a * u) - signFactor negative' * (b * u)| = (a + b : ℕ) * u := by
  have hflip : signFactor negative' = -signFactor negative := by
    revert hne
    cases negative <;> cases negative' <;> simp [signFactor]
  rw [hflip, neg_mul, sub_neg_eq_add, ← mul_add, ← add_mul, ← Nat.cast_add,
    abs_signFactor_mul _ _ hu]

theorem dist_mul_le_abs_sub (hu : 0 ≤ u) :
    Nat.dist a b * u ≤ |signFactor negative * (a * u) - signFactor negative' * (b * u)| := by
  have habs := abs_abs_sub_abs_le (signFactor negative * (a * u)) (signFactor negative' * (b * u))
  rw [abs_signFactor_mul _ _ hu, abs_signFactor_mul _ _ hu, ← sub_mul, abs_mul, ← cast_dist,
    abs_of_nonneg hu] at habs
  exact habs

end

/-! ## The nearest value -/

namespace Grid.IsNearest
variable {fraction num den m m' : ℕ} {negative negative' : Bool} {u : ℚ}

/-- What is nearest on the grid is nearest on both sides of zero. -/
theorem abs_sub_le (h : Grid.IsNearest fraction num den m) (hu : 0 ≤ u)
    (negative negative' : Bool) (m' : ℕ) :
    |signFactor negative * (num * u) -
        signFactor negative * ((Grid.units fraction m * den : ℕ) * u)| ≤
      |signFactor negative * (num * u) -
        signFactor negative' * ((Grid.units fraction m' * den : ℕ) * u)| := by
  rw [abs_sub_of_sign_eq _ _ _ hu]
  exact (mul_le_mul_of_nonneg_right (Nat.cast_le.mpr (h.dist_le m')) hu).trans
    (dist_mul_le_abs_sub _ _ _ _ hu)

/-- Another value is as near only if the nearest pattern is even. -/
theorem even_of_abs_sub_eq (h : Grid.IsNearest fraction num den m) (hu : 0 < u)
    (hne : signFactor negative' * ((Grid.units fraction m' * den : ℕ) * u) ≠
      signFactor negative * ((Grid.units fraction m * den : ℕ) * u))
    (htie : |signFactor negative * (num * u) -
        signFactor negative' * ((Grid.units fraction m' * den : ℕ) * u)| =
      |signFactor negative * (num * u) -
        signFactor negative * ((Grid.units fraction m * den : ℕ) * u)|) : Even m := by
  rw [abs_sub_of_sign_eq _ _ _ hu.le] at htie
  by_cases hm : m' = m
  · -- Then the other value is the negative of this one and only as near if both are zero.
    exfalso
    subst hm
    have hsign : negative ≠ negative' := by
      rintro rfl
      exact hne rfl
    rw [abs_sub_of_sign_ne _ _ hsign hu.le] at htie
    have hzero : Grid.units fraction m' * den = 0 :=
      h.units_mul_eq_zero (Nat.cast_injective (mul_right_cancel₀ hu.ne' htie)).symm
    exact hne (by rw [hzero]; simp)
  · refine h.even_of_tie m' hm (le_antisymm (h.dist_le m') ?_)
    have hfar := dist_mul_le_abs_sub negative negative' num (Grid.units fraction m' * den) hu.le
    rw [htie] at hfar
    exact Nat.cast_le.mp (le_of_mul_le_mul_right hfar hu)

end Grid.IsNearest

namespace Binary32

/-- A finite number is nearest to a rational: no other value is nearer, and if one is as near,
this one has an even fraction. -/
structure IsNearest (y : Binary32) (q : ℚ) : Prop where
  isFinite : y.isFinite
  abs_sub_le : ∀ z : Binary32, z.isFinite → |q - y.value| ≤ |q - z.value|
  even_of_tie : ∀ z : Binary32, z.isFinite → z.value ≠ y.value →
    |q - z.value| = |q - y.value| → Even y.trailing

theorem even_trailing_iff (y : Binary32) : Even y.trailing ↔ Even y.magnitude := by
  rw [magnitude_eq, Nat.even_iff, Nat.even_iff]
  omega

/-- What is nearest on the grid is nearest among the values. -/
theorem isNearest_value {x : Binary64} {y : Binary32} (hsign : y.negative = x.negative)
    (hfinite : y.isFinite) (h : Grid.IsNearest fraction x.units unitRatio y.magnitude) :
    y.IsNearest x.value := by
  have hvalue : ∀ z : Binary32, z.value = signFactor z.negative *
      ((Grid.units fraction z.magnitude * unitRatio : ℕ) * Binary64.unit) := value_eq
  refine ⟨hfinite, ?_, ?_⟩
  · intro z _
    rw [x.value_eq, hvalue, hvalue, hsign]
    exact h.abs_sub_le Binary64.unit_pos.le _ _ _
  · intro z _ hne htie
    rw [hvalue, hvalue, hsign] at hne
    rw [x.value_eq, hvalue, hvalue, hsign] at htie
    exact (even_trailing_iff y).mpr (h.even_of_abs_sub_eq Binary64.unit_pos hne htie)

end Binary32

namespace Binary64

/-- A finite number keeps its sign, and its magnitude goes to the nearest pattern or infinity. -/
theorem narrow_of_isFinite {x : Binary64} (h : x.isFinite) :
    x.narrow.negative = x.negative ∧ x.narrow.magnitude =
      min Binary32.infinity (Grid.nearest Binary32.fraction x.units Binary32.unitRatio) := by
  have hnan : ¬ x.isNaN := by
    rw [isNaN_iff, Nat.not_lt]
    exact (isFinite_iff.mp h).le
  have hnarrow : x.narrow = .ofMagnitude x.negative
      (min Binary32.infinity (Grid.nearest Binary32.fraction x.units Binary32.unitRatio)) := by
    rw [narrow, if_neg hnan, if_pos h]
  have hsign : min Binary32.infinity (Grid.nearest Binary32.fraction x.units Binary32.unitRatio) <
      Binary32.signBit := (Nat.min_le_left _ _).trans_lt (by decide)
  rw [hnarrow]
  exact ⟨Binary32.negative_ofMagnitude _ hsign, Binary32.magnitude_ofMagnitude _ hsign⟩

theorem isNearest_nearest (x : Binary64) :
    Grid.IsNearest Binary32.fraction x.units Binary32.unitRatio
      (Grid.nearest Binary32.fraction x.units Binary32.unitRatio) :=
  Grid.isNearest_nearest (by decide) Binary32.unitRatio_pos

theorem abs_value (x : Binary64) : |x.value| = x.units * unit := by
  rw [value_eq, abs_signFactor_mul _ _ unit_pos.le]

/-- A finite number is narrowed to a finite one if it lies below the middle between the largest
finite value and the next one on the grid. -/
theorem isFinite_narrow_iff {x : Binary64} (h : x.isFinite) :
    x.narrow.isFinite ↔ |x.value| < 2 ^ 128 - 2 ^ 103 := by
  have hfinite : x.narrow.isFinite ↔
      Grid.nearest Binary32.fraction x.units Binary32.unitRatio ≤ Binary32.infinity - 1 := by
    have hpos : 0 < Binary32.infinity := by decide
    rw [Binary32.isFinite_iff, (narrow_of_isFinite h).2]
    omega
  have hlast : Grid.units Binary32.fraction (Binary32.infinity - 1) = (2 ^ 24 - 1) * 2 ^ 253 :=
    Grid.units_binade Binary32.fraction 253 (s := 2 ^ 24 - 1) (by decide) (by decide)
  have hnext : Grid.units Binary32.fraction (Binary32.infinity - 1 + 1) = 2 ^ 24 * 2 ^ 253 :=
    Grid.units_binade_of_le Binary32.fraction 253 (s := 2 ^ 24) (by decide) (by decide)
  have hmiddle : (2 ^ 24 - 1) * 2 ^ 253 + 2 ^ 24 * 2 ^ 253 = 2 * ((2 ^ 25 - 1) * 2 ^ 252) := by
    norm_num
  have hscale : (((2 ^ 25 - 1) * 2 ^ 252 * Binary32.unitRatio : ℕ) : ℚ) * unit =
      2 ^ 128 - 2 ^ 103 := by
    rw [Nat.cast_mul, mul_assoc, Binary32.unitRatio_mul_unit]
    norm_num
  rw [hfinite, x.isNearest_nearest.le_iff Binary32.unitRatio_pos (by decide), hlast, hnext,
    hmiddle, Nat.mul_assoc, Nat.mul_lt_mul_left Nat.two_pos, abs_value, ← hscale,
    mul_lt_mul_iff_left₀ unit_pos, Nat.cast_lt]

/-- A number of the 64-bit format and what is left of it in the 32-bit format: the sign, and the
nearest value, infinity, or of a NaN the upper part of the fraction with the quiet bit set. -/
structure RoundsTo (x : Binary64) (y : Binary32) : Prop where
  negative_eq : y.negative = x.negative
  isNearest : x.isFinite → y.IsNearest x.value
  isInfinite : x.isInfinite → y.isInfinite
  isNaN : x.isNaN → y.isNaN ∧ y.trailing = x.trailing / 2 ^ 29 ||| 2 ^ 22

theorem roundsTo_narrow_of_isFinite {x : Binary64} (h : x.isFinite)
    (hsmall : |x.value| < 2 ^ 128 - 2 ^ 103) : x.RoundsTo x.narrow := by
  have hfinite := (isFinite_narrow_iff h).mpr hsmall
  obtain ⟨hnegative, hmin⟩ := narrow_of_isFinite h
  have hlt := isFinite_iff.mp h
  refine ⟨hnegative, fun _ => ?_, ?_, ?_⟩
  · have hmagnitude : x.narrow.magnitude =
        Grid.nearest Binary32.fraction x.units Binary32.unitRatio := by
      have hlt' := Binary32.isFinite_iff.mp hfinite
      omega
    apply Binary32.isNearest_value hnegative hfinite
    rw [hmagnitude]
    exact x.isNearest_nearest
  · intro hinf
    exact absurd (isInfinite_iff.mp hinf) hlt.ne
  · intro hnan
    exact absurd (isNaN_iff.mp hnan) hlt.le.not_gt

theorem roundsTo_narrow_of_isInfinite {x : Binary64} (h : x.isInfinite) : x.RoundsTo x.narrow := by
  have hmag := isInfinite_iff.mp h
  have hsign : Binary32.infinity < Binary32.signBit := by decide
  have hnarrow : x.narrow = .ofMagnitude x.negative Binary32.infinity := by
    simp [narrow, isNaN, isFinite, hmag]
  rw [hnarrow]
  refine ⟨Binary32.negative_ofMagnitude _ hsign, ?_, fun _ => ?_, ?_⟩
  · intro hfinite
    exact absurd hmag (isFinite_iff.mp hfinite).ne
  · exact Binary32.isInfinite_iff.mpr (Binary32.magnitude_ofMagnitude _ hsign)
  · intro hnan
    exact absurd hmag (isNaN_iff.mp hnan).ne'

/-- A NaN keeps the upper part of its fraction and is made quiet. -/
theorem narrow_of_isNaN {x : Binary64} (h : x.isNaN) :
    x.narrow.negative = x.negative ∧
      x.narrow.magnitude = Binary32.infinity + (x.trailing / 2 ^ 29 ||| 2 ^ 22) ∧
      x.narrow.isNaN := by
  have hnarrow : x.narrow =
      .ofMagnitude x.negative (Binary32.infinity + (x.trailing / 2 ^ 29 ||| 2 ^ 22)) := by
    rw [narrow, if_pos h, magnitude_of_isNaN h, Nat.add_sub_cancel_left]
    rfl
  have hlt : x.trailing / 2 ^ 29 < 2 * Binary32.quietBit := by
    rw [trailing, Binary32.quietBit]
    omega
  obtain ⟨hquiet, hor⟩ := Binary32.or_quietBit_bounds hlt
  have hroom : Binary32.infinity + 2 * Binary32.quietBit ≤ Binary32.signBit := by decide
  have hpos : 0 < Binary32.quietBit := by decide
  have hsign : Binary32.infinity + (x.trailing / 2 ^ 29 ||| 2 ^ 22) < Binary32.signBit :=
    (Nat.add_lt_add_left hor _).trans_le hroom
  have hmagnitude : x.narrow.magnitude = Binary32.infinity + (x.trailing / 2 ^ 29 ||| 2 ^ 22) := by
    rw [hnarrow, Binary32.magnitude_ofMagnitude _ hsign]
  refine ⟨by rw [hnarrow, Binary32.negative_ofMagnitude _ hsign], hmagnitude, ?_⟩
  rw [Binary32.isNaN_iff, hmagnitude]
  exact Nat.lt_add_of_pos_right (hpos.trans_le hquiet)

theorem roundsTo_narrow_of_isNaN {x : Binary64} (h : x.isNaN) : x.RoundsTo x.narrow := by
  obtain ⟨hnegative, hmagnitude, hnan⟩ := narrow_of_isNaN h
  have hgt := isNaN_iff.mp h
  refine ⟨hnegative, ?_, ?_, fun _ => ⟨hnan, ?_⟩⟩
  · intro hfinite
    exact absurd hgt (isFinite_iff.mp hfinite).le.not_gt
  · intro hinf
    exact absurd (isInfinite_iff.mp hinf) hgt.ne'
  · exact Nat.add_left_cancel ((Binary32.magnitude_of_isNaN hnan).symm.trans hmagnitude)

/-- Unless a finite number is too large, narrowing rounds it. -/
theorem roundsTo_narrow {x : Binary64} (h : x.isFinite → |x.value| < 2 ^ 128 - 2 ^ 103) :
    x.RoundsTo x.narrow := by
  rcases Nat.lt_trichotomy x.magnitude infinity with hlt | heq | hgt
  · have hfinite := isFinite_iff.mpr hlt
    exact roundsTo_narrow_of_isFinite hfinite (h hfinite)
  · exact roundsTo_narrow_of_isInfinite (isInfinite_iff.mpr heq)
  · exact roundsTo_narrow_of_isNaN (isNaN_iff.mpr hgt)

end Binary64

/-! ## Widening -/

namespace Binary32

/-- A number of the 32-bit format and the same in the 64-bit format: the sign, and the same value,
infinity, or a NaN whose fraction is moved up and made quiet. -/
structure ExtendsTo (y : Binary32) (x : Binary64) : Prop where
  negative_eq : x.negative = y.negative
  value_eq : y.isFinite → x.isFinite ∧ x.value = y.value
  isInfinite : y.isInfinite → x.isInfinite
  isNaN : y.isNaN → x.isNaN ∧ x.trailing = y.trailing * 2 ^ 29 ||| 2 ^ 51

theorem extendsTo_widen_of_isFinite {y : Binary32} (h : y.isFinite) : y.ExtendsTo y.widen := by
  obtain ⟨m, hm, hwiden, hunits⟩ := widen_of_isFinite h
  have hsign : m < Binary64.signBit := hm.trans Binary64.infinity_lt_signBit
  have hnegative : y.widen.negative = y.negative := by
    rw [hwiden, Binary64.negative_ofMagnitude _ hsign]
  have hmagnitude : y.widen.magnitude = m := by
    rw [hwiden, Binary64.magnitude_ofMagnitude _ hsign]
  have hvalue : y.widen.value = y.value := by
    rw [Binary64.value_eq, value_eq, hnegative, Binary64.units, hmagnitude, hunits]
  have hlt := isFinite_iff.mp h
  refine ⟨hnegative, fun _ => ⟨by rw [isFinite_widen, h], hvalue⟩, ?_, ?_⟩
  · intro hinf
    exact absurd (isInfinite_iff.mp hinf) hlt.ne
  · intro hnan
    exact absurd (isNaN_iff.mp hnan) hlt.le.not_gt

theorem extendsTo_widen_of_isInfinite {y : Binary32} (h : y.isInfinite) :
    y.ExtendsTo y.widen := by
  have hmag := isInfinite_iff.mp h
  have hsign := Binary64.infinity_lt_signBit
  rw [widen_of_magnitude_eq hmag]
  refine ⟨Binary64.negative_ofMagnitude _ hsign, ?_, fun _ => ?_, ?_⟩
  · intro hfinite
    exact absurd hmag (isFinite_iff.mp hfinite).ne
  · exact Binary64.isInfinite_iff.mpr (Binary64.magnitude_ofMagnitude _ hsign)
  · intro hnan
    exact absurd hmag (isNaN_iff.mp hnan).ne'

theorem extendsTo_widen_of_isNaN {y : Binary32} (h : y.isNaN) : y.ExtendsTo y.widen := by
  obtain ⟨n, -, hmag, hpos, hsign, hwiden⟩ := widen_of_isNaN h
  obtain rfl : y.trailing = n :=
    Nat.add_left_cancel ((magnitude_of_isNaN h).symm.trans hmag)
  have hmagnitude : y.widen.magnitude =
      Binary64.infinity + (y.trailing ||| quietBit) * nanShift := by
    rw [hwiden, Binary64.magnitude_ofMagnitude _ hsign]
  have hnan : y.widen.isNaN := by
    rw [Binary64.isNaN_iff, hmagnitude]
    exact Nat.lt_add_of_pos_right (Nat.mul_pos hpos (by decide))
  have hshift : (y.trailing ||| quietBit) * nanShift = y.trailing * 2 ^ 29 ||| 2 ^ 51 := by
    have hdistrib := Nat.shiftLeft_or_distrib (a := y.trailing) (b := quietBit) (i := 29)
    rw [Nat.shiftLeft_eq, Nat.shiftLeft_eq, Nat.shiftLeft_eq] at hdistrib
    exact hdistrib
  have hgt := isNaN_iff.mp h
  refine ⟨by rw [hwiden, Binary64.negative_ofMagnitude _ hsign], ?_, ?_, fun _ => ⟨hnan, ?_⟩⟩
  · intro hfinite
    exact absurd hgt (isFinite_iff.mp hfinite).le.not_gt
  · intro hinf
    exact absurd (isInfinite_iff.mp hinf) hgt.ne'
  · rw [Binary64.magnitude_of_isNaN hnan, hshift] at hmagnitude
    exact Nat.add_left_cancel hmagnitude

/-- Widening changes no number, but makes a NaN quiet. -/
theorem extendsTo_widen (y : Binary32) : y.ExtendsTo y.widen := by
  rcases Nat.lt_trichotomy y.magnitude infinity with hlt | heq | hgt
  · exact extendsTo_widen_of_isFinite (isFinite_iff.mpr hlt)
  · exact extendsTo_widen_of_isInfinite (isInfinite_iff.mpr heq)
  · exact extendsTo_widen_of_isNaN (isNaN_iff.mpr hgt)

end Binary32
end BinaryRecord
