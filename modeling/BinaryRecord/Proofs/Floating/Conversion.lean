import Mathlib.Tactic.Positivity
import BinaryRecord.Floating.Binary
import BinaryRecord.Proofs.Floating.Grid

/-!
# Conversion there and back

Every finite number of the 32-bit format is one of the 64-bit format, so widening
loses nothing. Narrowing takes it back, except that a NaN returns quiet.

## Main definitions

* `Binary32.isSignalling`, `Binary32.quieted`: the NaNs that do not return as they were.
-/

namespace BinaryRecord

/-! ## Sign and magnitude -/

namespace Binary64

theorem infinity_lt_signBit : infinity < signBit := by decide

@[simp] theorem magnitude_ofMagnitude (negative : Bool) {m : ℕ} (h : m < signBit) :
    (ofMagnitude negative m).magnitude = m := by
  cases negative <;> simp [ofMagnitude, magnitude, signBit] at h ⊢ <;> omega

@[simp] theorem negative_ofMagnitude (negative : Bool) {m : ℕ} (h : m < signBit) :
    (ofMagnitude negative m).negative = negative := by
  cases negative <;> simp [ofMagnitude, Binary64.negative, signBit] at h ⊢ <;> omega

theorem magnitude_lt (x : Binary64) : x.magnitude < signBit := Nat.mod_lt _ (by decide)

end Binary64

namespace Binary32

theorem magnitude_lt (x : Binary32) : x.magnitude < signBit := Nat.mod_lt _ (by decide)

@[simp] theorem magnitude_ofMagnitude (negative : Bool) {m : ℕ} (h : m < signBit) :
    (ofMagnitude negative m).magnitude = m := by
  cases negative <;> simp [ofMagnitude, magnitude, signBit] at h ⊢ <;> omega

@[simp] theorem negative_ofMagnitude (negative : Bool) {m : ℕ} (h : m < signBit) :
    (ofMagnitude negative m).negative = negative := by
  cases negative <;> simp [ofMagnitude, Binary32.negative, signBit] at h ⊢ <;> omega

/-- A pattern is its magnitude with the sign bit on top. -/
theorem magnitude_add_sign (x : Binary32) :
    x.magnitude + (if x.negative then signBit else 0) = x.bits.toNat := by
  have hlt : x.bits.toNat < 2 ^ 32 := x.bits.toNat_lt
  by_cases h : x.negative = true
  · have hge : signBit ≤ x.bits.toNat := by simpa [negative] using h
    rw [if_pos h, magnitude]
    simp only [signBit] at *
    omega
  · have hlt' : x.bits.toNat < signBit := by simpa [negative] using h
    rw [if_neg h, magnitude, Nat.mod_eq_of_lt hlt', Nat.add_zero]

@[simp] theorem ofMagnitude_magnitude (x : Binary32) : ofMagnitude x.negative x.magnitude = x := by
  rw [ofMagnitude, magnitude_add_sign, UInt32.ofNat_toNat]

/-- A NaN whose quiet bit is clear. -/
def isSignalling (x : Binary32) : Bool := x.isNaN && x.magnitude < infinity + quietBit

/-- A signalling NaN with its quiet bit set; every other number as it is. -/
def quieted (x : Binary32) : Binary32 :=
  if x.isSignalling then .ofMagnitude x.negative (x.magnitude + quietBit) else x

theorem isSignalling_iff {x : Binary32} :
    x.isSignalling = true ↔ infinity < x.magnitude ∧ x.magnitude < infinity + quietBit := by
  simp [isSignalling, isNaN]

theorem toNat_bits_quieted {x : Binary32} (h : x.isSignalling) :
    x.quieted.bits.toNat = x.bits.toNat + quietBit := by
  obtain ⟨-, hhigh⟩ := isSignalling_iff.mp h
  have hsign : (if x.negative then signBit else 0) ≤ signBit := by split <;> omega
  have hroom : infinity + 2 * quietBit + signBit ≤ 2 ^ 32 := by decide
  rw [quieted, if_pos h, ofMagnitude, UInt32.toNat_ofNat_of_lt', ← magnitude_add_sign x]
  · omega
  · rw [UInt32.size]
    omega

end Binary32

/-! ## Conversion -/

theorem Binary32.unitRatio_pos : 0 < unitRatio := by
  unfold unitRatio
  positivity

theorem Binary32.exists_magnitude_units_eq {m : ℕ} (h : m < infinity) :
    ∃ m' < Binary64.infinity,
      Grid.units Binary64.fraction m' = Grid.units fraction m * unitRatio := by
  obtain ⟨s, k, hs, hk, hunits⟩ : ∃ s k, s < 2 ^ (Binary64.fraction + 1) ∧ k ≤ 253 ∧
      Grid.units fraction m = s * 2 ^ k := by
    rcases Grid.pattern_cases fraction m with hlow | ⟨binade, s, hlow, hhigh, rfl⟩
    · refine ⟨m, 0, ?_, by omega, by simp [Grid.units_of_lt hlow]⟩
      exact hlow.trans (by decide)
    · refine ⟨s, binade, ?_, ?_, Grid.units_binade fraction binade hlow hhigh⟩
      · exact hhigh.trans (by decide)
      · simp only [fraction, infinity] at *
        omega
  obtain ⟨m', hlt, heq⟩ := Grid.exists_units_eq Binary64.fraction (k + 925) hs
  refine ⟨m', ?_, ?_⟩
  · have hbound : (k + 925 + 2) * 2 ^ Binary64.fraction ≤ 1180 * 2 ^ Binary64.fraction :=
      Nat.mul_le_mul_right _ (by omega)
    have hinf : 1180 * 2 ^ Binary64.fraction ≤ Binary64.infinity := by decide
    omega
  · rw [heq, hunits, pow_add, unitRatio, mul_assoc]

/-- Widening a finite number changes its pattern, not its value. -/
theorem Binary32.widen_of_isFinite {x : Binary32} (h : x.isFinite) :
    ∃ m < Binary64.infinity, x.widen = .ofMagnitude x.negative m ∧
      Grid.units Binary64.fraction m = x.units * unitRatio := by
  have hlt : x.magnitude < infinity := by simpa [isFinite] using h
  have hnan : x.isNaN = false := by simp [isNaN]; omega
  obtain ⟨m, hm, hunits⟩ := exists_magnitude_units_eq hlt
  refine ⟨m, hm, ?_, hunits⟩
  have hround : Binary64.round (x.units * unitRatio) 1 = m := by
    have := Grid.nearest_units_mul Binary64.fraction m Nat.one_pos
    rw [hunits, mul_one] at this
    rw [Binary64.round, units, this]
    omega
  simp [widen, hnan, h, hround]

theorem Binary32.narrow_widen_of_isFinite {x : Binary32} (h : x.isFinite) : x.widen.narrow = x := by
  obtain ⟨m, hm, hwiden, hunits⟩ := widen_of_isFinite h
  have hsign : m < Binary64.signBit := hm.trans Binary64.infinity_lt_signBit
  have hlt : x.magnitude < infinity := by simpa [isFinite] using h
  have hnan : (Binary64.ofMagnitude x.negative m).isNaN = false := by
    simp [Binary64.isNaN, hsign]; omega
  have hfin : (Binary64.ofMagnitude x.negative m).isFinite = true := by
    simp [Binary64.isFinite, hsign, hm]
  have hnearest : Grid.nearest fraction (x.units * unitRatio) unitRatio = x.magnitude :=
    Grid.nearest_units_mul fraction x.magnitude unitRatio_pos
  rw [hwiden, Binary64.narrow, hnan, hfin, Binary64.negative_ofMagnitude _ hsign, Binary64.units,
    Binary64.magnitude_ofMagnitude _ hsign, hunits, hnearest, Nat.min_eq_right hlt.le]
  simp

theorem Binary32.or_quietBit {n : ℕ} (h : n < 2 * quietBit) :
    n ||| quietBit = if n < quietBit then n + quietBit else n := by
  have hadd : ∀ r < quietBit, quietBit ||| r = quietBit + r := fun r hr =>
    (Nat.two_pow_add_eq_or_of_lt (i := 22) hr 1).symm
  split
  · next hlow => rw [Nat.or_comm, hadd n hlow, Nat.add_comm]
  · next hhigh =>
    obtain ⟨r, rfl⟩ := Nat.exists_eq_add_of_le (Nat.not_lt.mp hhigh)
    have hr : r < quietBit := by omega
    rw [← hadd r hr, Nat.or_comm, ← Nat.or_assoc, Nat.or_self]

/-- With the quiet bit set, a fraction is still one, and not zero. -/
theorem Binary32.or_quietBit_bounds {n : ℕ} (h : n < 2 * quietBit) :
    quietBit ≤ n ||| quietBit ∧ n ||| quietBit < 2 * quietBit := by
  rw [or_quietBit h]
  split <;> omega

/-- Widening a NaN moves its fraction up and sets the quiet bit. -/
theorem Binary32.widen_of_isNaN {x : Binary32} (h : x.isNaN) :
    ∃ n < 2 * quietBit, x.magnitude = infinity + n ∧ 0 < n ||| quietBit ∧
      Binary64.infinity + (n ||| quietBit) * nanShift < Binary64.signBit ∧
      x.widen = .ofMagnitude x.negative (Binary64.infinity + (n ||| quietBit) * nanShift) := by
  have hlt := x.magnitude_lt
  have hgt : infinity < x.magnitude := by simpa [isNaN] using h
  obtain ⟨n, hmag⟩ := Nat.exists_eq_add_of_le hgt.le
  have hn : n < 2 * quietBit := by simp only [quietBit, infinity, signBit] at *; omega
  obtain ⟨hquiet, hor⟩ := or_quietBit_bounds hn
  refine ⟨n, hn, hmag, Nat.lt_of_lt_of_le (by decide) hquiet, ?_, ?_⟩
  · simp only [quietBit, Binary64.infinity, nanShift, Binary64.signBit] at *
    omega
  · simp [widen, h, hmag]

theorem Binary32.widen_of_magnitude_eq {x : Binary32} (h : x.magnitude = infinity) :
    x.widen = .ofMagnitude x.negative Binary64.infinity := by
  simp [widen, isNaN, isFinite, h]

theorem Binary32.isFinite_widen (x : Binary32) : x.widen.isFinite = x.isFinite := by
  rcases Nat.lt_trichotomy x.magnitude infinity with hlt | heq | hgt
  · have hfin : x.isFinite = true := by simpa [isFinite] using hlt
    obtain ⟨m, hm, hwiden, -⟩ := widen_of_isFinite hfin
    simp [hwiden, hfin, Binary64.isFinite, hm, hm.trans Binary64.infinity_lt_signBit]
  · simp [widen_of_magnitude_eq heq, isFinite, heq, Binary64.isFinite, Binary64.infinity_lt_signBit]
  · obtain ⟨n, -, -, -, hsign, hwiden⟩ := widen_of_isNaN (x := x) (by simpa [isNaN] using hgt)
    have hfin : x.isFinite = false := by simpa [isFinite] using hgt.le
    simp [hwiden, hfin, Binary64.isFinite, hsign]

/-- A NaN comes back with its sign and fraction, and quiet. -/
theorem Binary32.narrow_widen_of_isNaN {x : Binary32} (h : x.isNaN) :
    x.widen.narrow = x.quieted := by
  obtain ⟨n, hn, hmag, hpos, hsign, hwiden⟩ := widen_of_isNaN h
  have hnan : x.widen.isNaN = true := by
    have : 0 < (n ||| quietBit) * nanShift := Nat.mul_pos hpos (by decide)
    simp [hwiden, Binary64.isNaN, hsign, this]
  have hback : n ||| quietBit ||| quietBit = n ||| quietBit := by rw [Nat.or_assoc, Nat.or_self]
  rw [Binary64.narrow, hnan, if_pos rfl, hwiden, Binary64.negative_ofMagnitude _ hsign,
    Binary64.magnitude_ofMagnitude _ hsign, Nat.add_sub_cancel_left,
    Nat.mul_div_cancel _ (by decide : 0 < nanShift), hback, or_quietBit hn, quieted,
    isSignalling, h, hmag]
  by_cases hlow : n < quietBit
  · simp [hlow, Nat.add_assoc]
  · simp [hlow, ← hmag, ofMagnitude_magnitude]
    omega

/-- Narrowing undoes widening, but for the quiet bit of a NaN. -/
theorem Binary32.narrow_widen (x : Binary32) : x.widen.narrow = x.quieted := by
  by_cases hnan : x.isNaN = true
  · exact narrow_widen_of_isNaN hnan
  have hsig : x.isSignalling = false := by simp [isSignalling, hnan]
  rw [quieted, hsig, if_neg Bool.false_ne_true]
  by_cases hfin : x.isFinite = true
  · exact narrow_widen_of_isFinite hfin
  · have hmag : x.magnitude = infinity := by
      simp only [isNaN, isFinite, decide_eq_true_eq] at hnan hfin
      omega
    have hnarrow : x.widen.narrow = .ofMagnitude x.negative infinity := by
      simp [Binary64.narrow, widen_of_magnitude_eq hmag, Binary64.infinity_lt_signBit,
        Binary64.isNaN, Binary64.isFinite]
    rw [hnarrow, ← hmag, ofMagnitude_magnitude]

/-- Widening does not tell a signalling NaN from the quiet one. -/
theorem Binary32.widen_quieted (x : Binary32) : x.quieted.widen = x.widen := by
  by_cases hsig : x.isSignalling = true
  · obtain ⟨hinf, hquiet⟩ := isSignalling_iff.mp hsig
    obtain ⟨n, hmag⟩ := Nat.exists_eq_add_of_le hinf.le
    have hn : n < quietBit := by omega
    have hroom : infinity + 2 * quietBit ≤ signBit := by decide
    have hlt : x.magnitude + quietBit < signBit := by omega
    have hnan : x.isNaN = true := by simpa [isNaN] using hinf
    have hnan' : (ofMagnitude x.negative (x.magnitude + quietBit)).isNaN = true := by
      rw [isNaN, magnitude_ofMagnitude _ hlt, decide_eq_true_eq]
      omega
    have hset : n ||| quietBit = n + quietBit := by rw [or_quietBit (by omega), if_pos hn]
    have hkept : (n + quietBit) ||| quietBit = n + quietBit := by
      rw [← hset, Nat.or_assoc, Nat.or_self]
    rw [quieted, if_pos hsig, widen, widen, hnan, hnan', if_pos rfl, if_pos rfl,
      negative_ofMagnitude _ hlt, magnitude_ofMagnitude _ hlt, hmag, Nat.add_assoc,
      Nat.add_sub_cancel_left, Nat.add_sub_cancel_left, hset, hkept]
  · rw [quieted, if_neg hsig]

/-- Narrowing gives no signalling NaN. -/
theorem Binary64.isSignalling_narrow (x : Binary64) : x.narrow.isSignalling = false := by
  have hsmall : ∀ m, m < Binary32.signBit →
      m ≤ Binary32.infinity ∨ Binary32.infinity + Binary32.quietBit ≤ m →
      (Binary32.ofMagnitude x.negative m).isSignalling = false := by
    intro m hm hcases
    rw [Bool.eq_false_iff, ne_eq, Binary32.isSignalling_iff, Binary32.magnitude_ofMagnitude _ hm]
    omega
  have hinf : Binary32.infinity < Binary32.signBit := by decide
  unfold narrow
  by_cases hnan : x.isNaN = true
  · obtain ⟨n, hn⟩ : ∃ n, n = (x.magnitude - infinity) / nanShift := ⟨_, rfl⟩
    have hlt : n < 2 * Binary32.quietBit := by
      have hmag := x.magnitude_lt
      simp only [infinity, nanShift, Binary32.quietBit, signBit] at *
      omega
    have hroom : Binary32.infinity + 2 * Binary32.quietBit ≤ Binary32.signBit := by decide
    have hor := Binary32.or_quietBit_bounds hlt
    rw [if_pos hnan, ← hn]
    apply hsmall <;> omega
  · rw [if_neg hnan]
    by_cases hfin : x.isFinite = true
    · rw [if_pos hfin]
      apply hsmall
      · omega
      · exact .inl (Nat.min_le_left _ _)
    · rw [if_neg hfin]
      exact hsmall _ hinf (.inl (Nat.le_refl _))

end BinaryRecord
