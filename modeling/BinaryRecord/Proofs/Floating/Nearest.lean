import Mathlib.Algebra.Group.Nat.Even
import Mathlib.Data.Nat.Dist
import Mathlib.Order.Monotone.Basic
import BinaryRecord.Proofs.Floating.Integer

/-!
# The nearest pattern

Rounding a quotient to a multiple of the spacing of its binade gives the pattern that is nearest
among all. The patterns from the binade on are such multiples, and the others lie below it, behind
the multiple at its start. A tie leaves an even multiple, so an even pattern.

## Main definitions

* `Grid.IsNearest`: no pattern is nearer to a quotient, and in a tie this one is even.
-/

namespace BinaryRecord.Grid
variable {fraction num den m : ℕ}

/-! ## The order of the patterns -/

/-- The end of a binade is the start of the next one. -/
theorem units_binade_of_le (fraction binade : ℕ) {s : ℕ} (hlow : 2 ^ fraction ≤ s)
    (hhigh : s ≤ 2 ^ (fraction + 1)) :
    units fraction (binade * 2 ^ fraction + s) = s * 2 ^ binade := by
  rcases Nat.lt_or_eq_of_le hhigh with hlt | rfl
  · exact units_binade fraction binade hlow hlt
  · have hnext : binade * 2 ^ fraction + 2 ^ (fraction + 1) =
        (binade + 1) * 2 ^ fraction + 2 ^ fraction := by
      rw [pow_succ]
      ring
    have hstart : 2 ^ fraction < 2 ^ (fraction + 1) :=
      Nat.pow_lt_pow_right (by decide) (Nat.lt_succ_self fraction)
    rw [hnext, units_binade fraction (binade + 1) le_rfl hstart, pow_succ, pow_succ]
    ring

/-- Up to the end of the first binade the units are counted by the pattern itself. -/
theorem units_of_le (h : m ≤ 2 ^ (fraction + 1)) : units fraction m = m := by
  rcases Nat.lt_or_ge m (2 ^ fraction) with hlow | hlow
  · exact units_of_lt hlow
  · simpa using units_binade_of_le fraction 0 hlow h

theorem units_strictMono (fraction : ℕ) : StrictMono (units fraction) := by
  apply strictMono_nat_of_lt_succ
  intro m
  rcases pattern_cases fraction m with hlow | ⟨binade, s, hlow, hhigh, rfl⟩
  · have hnext : m + 1 ≤ 2 ^ (fraction + 1) := by
      rw [pow_succ]
      omega
    rw [units_of_lt hlow, units_of_le hnext]
    exact Nat.lt_succ_self m
  · rw [units_binade_of_le fraction binade hlow hhigh.le, Nat.add_assoc,
      units_binade_of_le fraction binade (by omega) hhigh]
    exact Nat.mul_lt_mul_of_pos_right (Nat.lt_succ_self s) (Nat.two_pow_pos binade)

/-- Every pattern lies below a binade or is a multiple of its spacing. -/
theorem units_lt_or_dvd (fraction k m : ℕ) :
    units fraction m < 2 ^ fraction * 2 ^ k ∨ 2 ^ k ∣ units fraction m := by
  rcases Nat.lt_or_ge m (k * 2 ^ fraction + 2 ^ fraction) with hbelow | habove
  · have hstart := units_binade_of_le fraction k le_rfl
      (Nat.pow_le_pow_right (by decide) (Nat.le_succ fraction))
    exact .inl (hstart ▸ units_strictMono fraction hbelow)
  · right
    rcases pattern_cases fraction m with hlow | ⟨binade, s, hlow, hhigh, rfl⟩
    · omega
    · have hle : k ≤ binade := by
        rw [pow_succ] at hhigh
        have hlt : k * 2 ^ fraction < (binade + 1) * 2 ^ fraction := by
          rw [Nat.succ_mul]
          omega
        exact Nat.lt_succ_iff.mp (Nat.lt_of_mul_lt_mul_right hlt)
      rw [units_binade fraction binade hlow hhigh]
      exact Dvd.dvd.mul_left (pow_dvd_pow 2 hle) s

/-! ## Rounding to an integer -/

/-- A rounded quotient is off by half the denominator at most, and only an even one by that. -/
theorem two_mul_dist_roundQuotient_le (num : ℕ) (h : 0 < den) :
    2 * Nat.dist num (roundQuotient num den * den) ≤ den ∧
      (2 * Nat.dist num (roundQuotient num den * den) = den → Even (roundQuotient num den)) := by
  obtain ⟨q, hq⟩ : ∃ q, q = num / den := ⟨_, rfl⟩
  obtain ⟨r, hr⟩ : ∃ r, r = num % den := ⟨_, rfl⟩
  have hlt : r < den := hr ▸ Nat.mod_lt num h
  have hnum : num = q * den + r := by rw [hq, hr, Nat.div_add_mod']
  have hdown : Nat.dist num (q * den) = r := by
    rw [hnum, Nat.dist]
    omega
  have hup : Nat.dist num ((q + 1) * den) = den - r := by
    rw [hnum, Nat.succ_mul, Nat.dist]
    omega
  rw [roundQuotient, ← hq, ← hr]
  split
  · rw [hdown]
    omega
  split
  · rw [hup]
    omega
  · rcases Nat.even_or_odd q with heven | hodd
    · rw [Nat.even_iff.mp heven, Nat.add_zero, hdown]
      exact ⟨by omega, fun _ => heven⟩
    · rw [Nat.odd_iff.mp hodd, hup]
      exact ⟨by omega, fun _ => hodd.add_one⟩

/-- No multiple of the denominator is nearer than the rounded one, and if another is as near, the
rounded one is even. -/
theorem dist_roundQuotient_le (num : ℕ) (h : 0 < den) (j : ℕ) :
    Nat.dist num (roundQuotient num den * den) ≤ Nat.dist num (j * den) ∧
      (Nat.dist num (roundQuotient num den * den) = Nat.dist num (j * den) →
        j = roundQuotient num den ∨ Even (roundQuotient num den)) := by
  obtain ⟨hle, heven⟩ := two_mul_dist_roundQuotient_le num h
  generalize roundQuotient num den = R at *
  rcases eq_or_ne j R with rfl | hne
  · exact ⟨le_rfl, fun _ => .inl rfl⟩
  have hapart : den ≤ Nat.dist num (R * den) + Nat.dist num (j * den) := by
    have hstep : den ≤ Nat.dist (R * den) (j * den) := by
      rw [Nat.dist_mul_right]
      exact Nat.le_mul_of_pos_left den (Nat.dist_pos_of_ne hne.symm)
    rw [Nat.dist_comm num (R * den)]
    exact hstep.trans (Nat.dist.triangle_inequality _ _ _)
  refine ⟨by omega, ?_⟩
  intro htie
  exact .inr (heven (by omega))

/-! ## Rounding to a pattern -/

/-- No pattern is nearer to a quotient than this one, and if another is as near, this one is
even. -/
structure IsNearest (fraction num den m : ℕ) : Prop where
  dist_le : ∀ m', Nat.dist num (units fraction m * den) ≤ Nat.dist num (units fraction m' * den)
  even_of_tie : ∀ m' ≠ m,
    Nat.dist num (units fraction m * den) = Nat.dist num (units fraction m' * den) → Even m

/-- A quotient lies in its binade, or below all but the first. -/
theorem binade_bounds (fraction : ℕ) (hden : 0 < den) {k : ℕ}
    (hk : k = Nat.log2 (num / den) - fraction) :
    (k = 0 ∨ 2 ^ fraction * (den * 2 ^ k) ≤ num) ∧ num < 2 ^ (fraction + 1) * (den * 2 ^ k) := by
  have hspacing : ∀ e, 2 ^ e * (den * 2 ^ k) = 2 ^ (e + k) * den := by
    intro e
    rw [pow_add]
    ring
  rw [hspacing, hspacing, ← Nat.div_lt_iff_lt_mul hden, ← Nat.le_div_iff_mul_le hden]
  constructor
  · rcases Nat.eq_zero_or_pos k with hzero | hpos
    · exact .inl hzero
    · have hne : num / den ≠ 0 := by
        intro hzero
        rw [hzero, Nat.log2_zero] at hk
        omega
      exact .inr ((Nat.pow_le_pow_right (by decide) (by omega)).trans (Nat.log2_self_le hne))
  · exact Nat.lt_log2_self.trans_le (Nat.pow_le_pow_right (by decide) (by omega))

/-- A quotient is rounded to a significand of its binade or to the end of it. -/
theorem roundQuotient_bounds (fraction : ℕ) (hden : 0 < den) {k : ℕ}
    (hk : k = Nat.log2 (num / den) - fraction) :
    (k = 0 ∨ 2 ^ fraction ≤ roundQuotient num (den * 2 ^ k)) ∧
      roundQuotient num (den * 2 ^ k) ≤ 2 ^ (fraction + 1) := by
  have hspacing : 0 < den * 2 ^ k := Nat.mul_pos hden (Nat.two_pow_pos k)
  obtain ⟨hlow, hhigh⟩ := binade_bounds fraction hden hk
  refine ⟨hlow.imp_right ?_, roundQuotient_le hhigh⟩
  intro hle
  by_contra hbelow
  have hstep := Nat.mul_le_mul_right (den * 2 ^ k) (Nat.lt_of_not_le hbelow)
  rw [Nat.succ_mul] at hstep
  have hnear := (two_mul_dist_roundQuotient_le num hspacing).1
  rw [Nat.dist] at hnear
  omega

theorem units_nearest (fraction : ℕ) (hden : 0 < den) {k : ℕ}
    (hk : k = Nat.log2 (num / den) - fraction) :
    units fraction (nearest fraction num den) = roundQuotient num (den * 2 ^ k) * 2 ^ k := by
  obtain ⟨hlow, hhigh⟩ := roundQuotient_bounds fraction hden hk
  rw [nearest, ← hk]
  rcases hlow with rfl | hlow
  · rw [Nat.zero_mul, Nat.zero_add, units_of_le hhigh, Nat.pow_zero, Nat.mul_one, Nat.mul_one]
  · exact units_binade_of_le fraction k hlow hhigh

/-- The rounded pattern is nearest, with ties to even. -/
theorem isNearest_nearest {fraction num den : ℕ} (hfraction : 0 < fraction) (hden : 0 < den) :
    IsNearest fraction num den (nearest fraction num den) := by
  obtain ⟨k, hk⟩ : ∃ k, k = Nat.log2 (num / den) - fraction := ⟨_, rfl⟩
  have hspacing : 0 < den * 2 ^ k := Nat.mul_pos hden (Nat.two_pow_pos k)
  have hround := dist_roundQuotient_le num hspacing
  have hscale : ∀ j, j * 2 ^ k * den = j * (den * 2 ^ k) := by
    intro j
    ring
  -- A pattern that is no multiple of the spacing is further off than the start of the binade.
  have hcases : ∀ m', (∃ j, units fraction m' * den = j * (den * 2 ^ k) ∧
        units fraction m' = j * 2 ^ k) ∨
      Nat.dist num (roundQuotient num (den * 2 ^ k) * (den * 2 ^ k)) <
        Nat.dist num (units fraction m' * den) := by
    intro m'
    rcases units_lt_or_dvd fraction k m' with hbelow | ⟨j, hj⟩
    · rcases (binade_bounds fraction hden hk).1 with rfl | hstart
      · exact .inl ⟨units fraction m', by simp, by simp⟩
      · right
        have hlt := Nat.mul_lt_mul_of_pos_right hbelow hden
        rw [hscale] at hlt
        have hnear := (hround (2 ^ fraction)).1
        rw [Nat.dist_eq_sub_of_le_right hstart] at hnear
        rw [Nat.dist_eq_sub_of_le_right (hlt.le.trans hstart)]
        omega
    · rw [Nat.mul_comm] at hj
      exact .inl ⟨j, by rw [hj, hscale], hj⟩
  have hunits := units_nearest fraction hden hk
  constructor
  · intro m'
    rw [hunits, hscale]
    rcases hcases m' with ⟨j, hj, -⟩ | hfar
    · rw [hj]
      exact (hround j).1
    · exact hfar.le
  · intro m' hne htie
    rw [hunits, hscale] at htie
    rcases hcases m' with ⟨j, hj, hmul⟩ | hfar
    · rw [hj] at htie
      rcases (hround j).2 htie with rfl | heven
      · exact absurd ((units_strictMono fraction).injective (hmul.trans hunits.symm)) hne
      · rw [nearest, ← hk]
        exact (((Nat.even_pow.mpr ⟨even_two, hfraction.ne'⟩).mul_left k)).add heven
    · exact absurd htie hfar.ne

/-- On the other side of zero nothing is as near, unless the nearest pattern is zero. -/
theorem IsNearest.units_mul_eq_zero (h : IsNearest fraction num den m)
    (hsum : Nat.dist num (units fraction m * den) = num + units fraction m * den) :
    units fraction m * den = 0 := by
  have hleast := h.dist_le 0
  rw [units_of_lt (Nat.two_pow_pos fraction), Nat.zero_mul, Nat.dist_zero_right, hsum] at hleast
  omega

/-- An odd pattern and those below it are nearest to what lies below the middle between it and
the next one. -/
theorem IsNearest.le_iff {p : ℕ} (h : IsNearest fraction num den m) (hden : 0 < den)
    (hodd : Odd p) :
    m ≤ p ↔ 2 * num < (units fraction p + units fraction (p + 1)) * den := by
  have hmono := units_strictMono fraction
  have hsucc : units fraction p * den < units fraction (p + 1) * den :=
    Nat.mul_lt_mul_of_pos_right (hmono (Nat.lt_succ_self p)) hden
  rw [Nat.add_mul]
  constructor
  · intro hle
    by_contra hmiddle
    have hbelow := Nat.mul_le_mul_right den (hmono.monotone hle)
    have hnear := h.dist_le (p + 1)
    have htie : Nat.dist num (units fraction m * den) =
        Nat.dist num (units fraction (p + 1) * den) := by
      rw [Nat.dist, Nat.dist] at *
      omega
    have heven := h.even_of_tie (p + 1) (by omega) htie
    have hsame : units fraction m * den = units fraction p * den := by
      rw [Nat.dist, Nat.dist] at *
      omega
    have hm : m = p := hmono.injective (Nat.eq_of_mul_eq_mul_right hden hsame)
    exact Nat.not_even_iff_odd.mpr hodd (hm ▸ heven)
  · intro hmiddle
    by_contra habove
    have hbeyond := Nat.mul_le_mul_right den (hmono.monotone (Nat.lt_of_not_le habove))
    have hnear := h.dist_le p
    rw [Nat.dist, Nat.dist] at hnear
    rw [Nat.succ_eq_add_one] at hbeyond
    omega

end BinaryRecord.Grid
