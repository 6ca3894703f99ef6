import BinaryRecord.Json.Basic
import BinaryRecord.Proofs.Floating.Conversion

/-!
# Integers as floating-point numbers

The pattern nearest to a quotient lies in the binade of the quotient or at the start of the
next one. So no integer of a machine word is rounded to infinity.
-/

namespace BinaryRecord

namespace Grid

theorem roundQuotient_le {num den q : ℕ} (h : num < q * den) : roundQuotient num den ≤ q := by
  have hdiv : num / den < q := Nat.div_lt_of_lt_mul (by rwa [Nat.mul_comm])
  have hround : roundQuotient num den ≤ num / den + 1 := by
    unfold roundQuotient
    dsimp only
    split
    · omega
    split <;> omega
  omega

/-- A quotient below a power of two is rounded to a pattern of its binades. -/
theorem nearest_le (fraction : ℕ) {e num den : ℕ} (hden : 0 < den) (h : num < 2 ^ e * den) :
    nearest fraction num den ≤ (e - (fraction + 1) + 2) * 2 ^ fraction := by
  obtain ⟨binade, hbinade⟩ : ∃ b, b = Nat.log2 (num / den) - fraction := ⟨_, rfl⟩
  have hle : binade ≤ e - (fraction + 1) := by
    rcases Nat.eq_zero_or_pos (num / den) with hzero | hpos
    · simp [hbinade, hzero]
    · have hdiv : num / den < 2 ^ e := Nat.div_lt_of_lt_mul (by rwa [Nat.mul_comm])
      have hlog := (Nat.log2_lt hpos.ne').mpr hdiv
      omega
  have hquotient : roundQuotient num (den * 2 ^ binade) ≤ 2 ^ (fraction + 1) := by
    apply roundQuotient_le
    have hlog : num / den < 2 ^ (fraction + 1 + binade) :=
      Nat.lt_of_lt_of_le Nat.lt_log2_self (Nat.pow_le_pow_right (by decide) (by omega))
    calc num < 2 ^ (fraction + 1 + binade) * den := (Nat.div_lt_iff_lt_mul hden).mp hlog
      _ = 2 ^ (fraction + 1) * (den * 2 ^ binade) := by rw [pow_add]; ring
  rw [nearest, ← hbinade]
  calc binade * 2 ^ fraction + roundQuotient num (den * 2 ^ binade)
      ≤ binade * 2 ^ fraction + 2 ^ (fraction + 1) := Nat.add_le_add_left hquotient _
    _ = (binade + 2) * 2 ^ fraction := by rw [pow_succ]; ring
    _ ≤ (e - (fraction + 1) + 2) * 2 ^ fraction := Nat.mul_le_mul_right _ (by omega)

end Grid

namespace Binary64

theorem isFinite_ofMagnitude (negative : Bool) {m : ℕ} (h : m < infinity) :
    (ofMagnitude negative m).isFinite = true := by
  simp [isFinite, h.trans infinity_lt_signBit, h]

theorem unitsInOne_pos : 0 < unitsInOne := by
  unfold unitsInOne
  positivity

/-- An integer of a machine word is rounded to a finite number. -/
theorem isFinite_ofInt {n : ℤ} (h : n.natAbs < 2 ^ 64) : (ofInt n).isFinite = true := by
  apply isFinite_ofMagnitude
  have hscale : ∀ k, 2 ^ (64 + k) * 1 = 2 ^ 64 * 2 ^ k := by
    intro k
    rw [Nat.mul_one, pow_add]
  have hunits : n.natAbs * unitsInOne < 2 ^ (64 + 1074) * 1 := by
    rw [hscale 1074, ← unitsInOne]
    exact Nat.mul_lt_mul_of_pos_right h unitsInOne_pos
  have hnearest := Grid.nearest_le fraction Nat.one_pos hunits
  have hroom : (64 + 1074 - (fraction + 1) + 2) * 2 ^ fraction < infinity := by decide
  rw [round]
  omega

end Binary64

/-- The number nearest to a JSON number is finite. -/
theorem JsonNumber.isFinite_toBinary64 (n : JsonNumber) : n.toBinary64.isFinite = true := by
  cases n with
  | natural n =>
    have hlt := n.toNat_lt
    exact Binary64.isFinite_ofInt (by omega)
  | negative n _ =>
    have hlow := n.le_toInt
    have hhigh := n.toInt_lt
    exact Binary64.isFinite_ofInt (by omega)
  | float x hfinite => exact hfinite

end BinaryRecord
