import Mathlib.Data.Nat.Log
import Mathlib.Tactic.Positivity
import Mathlib.Tactic.Ring
import BinaryRecord.Floating.Grid

/-!
# Values on the grid

A significand at any power of two is the value of a pattern, and a value of a
pattern is nearest to itself, so a number that lies on two grids passes from one
to the other unchanged.
-/

namespace BinaryRecord.Grid

theorem roundQuotient_mul (q : ℕ) {den : ℕ} (h : 0 < den) :
    roundQuotient (q * den) den = q := by
  simp [roundQuotient, Nat.mul_div_cancel _ h, h]

/-- A pattern beyond the first binade as its binade and its significand. -/
theorem units_binade (fraction binade : ℕ) {s : ℕ} (hlow : 2 ^ fraction ≤ s)
    (hhigh : s < 2 ^ (fraction + 1)) :
    units fraction (binade * 2 ^ fraction + s) = s * 2 ^ binade := by
  have hpos : 0 < 2 ^ fraction := Nat.two_pow_pos fraction
  obtain ⟨r, rfl⟩ := Nat.exists_eq_add_of_le hlow
  have hr : r < 2 ^ fraction := by rw [pow_succ] at hhigh; omega
  have hsplit : binade * 2 ^ fraction + (2 ^ fraction + r) =
      r + (binade + 1) * 2 ^ fraction := by ring
  have hge : ¬ r + (binade + 1) * 2 ^ fraction < 2 ^ fraction := by
    rw [Nat.succ_mul]
    omega
  rw [units, hsplit, if_neg hge, Nat.add_mul_mod_self_right, Nat.add_mul_div_right _ _ hpos,
    Nat.mod_eq_of_lt hr, Nat.div_eq_of_lt hr]
  simp

/-- Below the first binade the units are counted by the pattern itself. -/
theorem units_of_lt {fraction m : ℕ} (h : m < 2 ^ fraction) : units fraction m = m := if_pos h

/-- Every pattern is small or lies in a binade under a significand. -/
theorem pattern_cases (fraction m : ℕ) :
    m < 2 ^ fraction ∨ ∃ binade s, 2 ^ fraction ≤ s ∧ s < 2 ^ (fraction + 1) ∧
      m = binade * 2 ^ fraction + s := by
  rcases Nat.lt_or_ge m (2 ^ fraction) with h | h
  · exact .inl h
  · have hpos : 0 < 2 ^ fraction := Nat.two_pow_pos fraction
    have hdiv : 1 ≤ m / 2 ^ fraction := (Nat.one_le_div_iff hpos).mpr h
    have hmod : m % 2 ^ fraction < 2 ^ fraction := Nat.mod_lt _ hpos
    have hm := Nat.div_add_mod' m (2 ^ fraction)
    refine .inr ⟨m / 2 ^ fraction - 1, 2 ^ fraction + m % 2 ^ fraction, by omega, ?_, ?_⟩
    · rw [pow_succ]
      omega
    · rw [Nat.sub_mul]
      have : 2 ^ fraction ≤ m / 2 ^ fraction * 2 ^ fraction := Nat.le_mul_of_pos_left _ hdiv
      omega

theorem log2_mul_two_pow {fraction s : ℕ} (hlow : 2 ^ fraction ≤ s)
    (hhigh : s < 2 ^ (fraction + 1)) (k : ℕ) : Nat.log2 (s * 2 ^ k) = fraction + k := by
  have hpos : 0 < 2 ^ k := Nat.two_pow_pos k
  have hs : s * 2 ^ k ≠ 0 :=
    (Nat.mul_pos (Nat.lt_of_lt_of_le (Nat.two_pow_pos fraction) hlow) hpos).ne'
  rw [Nat.log2_eq_iff hs]
  refine ⟨?_, ?_⟩
  · rw [pow_add]
    exact Nat.mul_le_mul_right _ hlow
  · rw [show fraction + k + 1 = fraction + 1 + k by omega, pow_add]
    exact Nat.mul_lt_mul_of_pos_right hhigh hpos

/-- A quotient that is a multiple of the spacing of its binade is met exactly. -/
theorem nearest_binade {fraction s : ℕ} (hlow : 2 ^ fraction ≤ s) (hhigh : s < 2 ^ (fraction + 1))
    (binade : ℕ) {d : ℕ} (hd : 0 < d) :
    nearest fraction (s * 2 ^ binade * d) d = binade * 2 ^ fraction + s := by
  have hlog : Nat.log2 (s * 2 ^ binade) - fraction = binade := by
    rw [log2_mul_two_pow hlow hhigh]
    omega
  rw [nearest, Nat.mul_div_cancel _ hd, hlog]
  rw [show s * 2 ^ binade * d = s * (d * 2 ^ binade) by ring, roundQuotient_mul s (by positivity)]

theorem nearest_of_lt {fraction m : ℕ} (h : m < 2 ^ (fraction + 1)) {d : ℕ} (hd : 0 < d) :
    nearest fraction (m * d) d = m := by
  have hlog : Nat.log2 m - fraction = 0 := by
    rcases Nat.eq_zero_or_pos m with rfl | hm
    · simp
    · have := (Nat.log2_lt hm.ne').mpr h
      omega
  rw [nearest, Nat.mul_div_cancel _ hd, hlog]
  simp [roundQuotient_mul m hd]

/-- A value on the grid is nearest to itself, over any denominator. -/
theorem nearest_units_mul (fraction m : ℕ) {d : ℕ} (hd : 0 < d) :
    nearest fraction (units fraction m * d) d = m := by
  rcases pattern_cases fraction m with h | ⟨binade, s, hlow, hhigh, rfl⟩
  · rw [units_of_lt h]
    exact nearest_of_lt (by rw [pow_succ]; omega) hd
  · rw [units_binade fraction binade hlow hhigh]
    exact nearest_binade hlow hhigh binade hd

/-- A significand at any power of two lies on the grid. -/
theorem exists_units_eq (fraction k : ℕ) {s : ℕ} (hs : s < 2 ^ (fraction + 1)) :
    ∃ m, m < (k + 2) * 2 ^ fraction ∧ units fraction m = s * 2 ^ k := by
  -- A small significand is doubled until it fills the binade or the power is used up.
  induction k generalizing s with
  | zero =>
    refine ⟨s, by rw [pow_succ] at hs; omega, ?_⟩
    rcases Nat.lt_or_ge s (2 ^ fraction) with h | h
    · simp [units_of_lt h]
    · simpa using units_binade fraction 0 h hs
  | succ k ih =>
    rcases Nat.lt_or_ge s (2 ^ fraction) with h | h
    · obtain ⟨m, hm, hunits⟩ := ih (s := s * 2) (by rw [pow_succ]; omega)
      refine ⟨m, by rw [Nat.succ_add, Nat.succ_mul]; omega, ?_⟩
      rw [hunits, pow_succ]
      ring
    · refine ⟨(k + 1) * 2 ^ fraction + s, ?_, units_binade fraction (k + 1) h hs⟩
      rw [pow_succ] at hs
      rw [Nat.add_mul (k + 1) 2]
      omega

end BinaryRecord.Grid
