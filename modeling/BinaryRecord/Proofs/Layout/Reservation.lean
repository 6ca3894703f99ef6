import Mathlib.Order.Monotone.Defs
import BinaryRecord.Proofs.Checked.Pack
import BinaryRecord.Proofs.Layout.Loose

/-!
# The length of the output, told in advance

Before anything is packed, a walk along the groups tells how long the output will be. It counts the
values down that packing takes from the front, and both end at the first group for which there are
not enough: the output is that of the groups that are covered.
-/

namespace BinaryRecord

namespace Layout
variable {layout : Layout} {vs : List Value} {packed : Bytes}

/-- The walk ends behind the groups that the values cover. -/
theorem packedLength_eq_byteLength_take (layout : Layout) (n : ℕ) :
    layout.packedLength n = byteLength (layout.take (layout.covered Group.valueCount n)) := by
  induction layout generalizing n with
  | nil => rfl
  | cons g layout ih =>
    rw [packedLength]
    cases hpad : g.code.isPad with
    | true =>
      -- Pads need no values, so the walk does not end there.
      have hcount : g.valueCount = 0 := Group.valueCount_of_isPad hpad
      rw [if_pos rfl, ih, covered_of_le (by omega), hcount, Nat.sub_zero, List.take_succ_cons,
        byteLength]
    | false =>
      rw [if_neg Bool.false_ne_true]
      by_cases hshort : n < g.valueCount
      · rw [if_pos hshort, covered_of_lt hshort, List.take_zero, byteLength]
      · rw [if_neg hshort, ih, covered_of_le (Nat.le_of_not_lt hshort), List.take_succ_cons,
          byteLength]

theorem length_eq_packedLength_of_pack {mode : Mode} (hwf : layout.WellFormed)
    (h : layout.pack mode vs = .ok packed) : packed.length = layout.packedLength vs.length := by
  rw [length_of_pack_loose hwf (pack_loose_of_pack h), packedLength_eq_byteLength_take]

/-- More values cover no fewer groups. -/
theorem covered_mono (demand : Group → ℕ) (layout : Layout) : Monotone (layout.covered demand) := by
  intro n n' hle
  obtain ⟨hlength, hsum⟩ := (isGreatest_covered demand layout n).1
  exact (isGreatest_covered demand layout n').2 ⟨hlength, hsum.trans hle⟩

theorem packedLength_mono (layout : Layout) : Monotone layout.packedLength := by
  intro n n' hle
  have hcovered := covered_mono Group.valueCount layout hle
  rw [packedLength_eq_byteLength_take, packedLength_eq_byteLength_take,
    ← Nat.min_eq_left hcovered, ← List.take_take]
  exact byteLength_take_le _ _

theorem packedLength_le_byteLength (layout : Layout) (n : ℕ) :
    layout.packedLength n ≤ layout.byteLength := by
  rw [packedLength_eq_byteLength_take]
  exact byteLength_take_le _ _

theorem packedLength_of_valueCount_le {n : ℕ} (h : layout.valueCount ≤ n) :
    layout.packedLength n = layout.byteLength := by
  rw [packedLength_eq_byteLength_take, covered_of_sum_le (by rwa [← valueCount_eq_sum]),
    List.take_length]

end Layout

namespace Format
open Layout

/-- The walk in advance agrees with packing. Whatever a format packs to, in either mode, is as long
as the walk told from the number of values. That length does not fall when there are more values, is
at most that of the whole layout, and is that of the whole layout once there is a value for each
slot. -/
theorem length_pack_eq_outputBound (f : Format) :
    (∀ n, Checked.outputBound 0 n f.layout = .ok (f.layout.packedLength n)) ∧
    (∀ (mode : Mode) (vs : List Value) (packed : Bytes), f.layout.pack mode vs = .ok packed →
      packed.length = f.layout.packedLength vs.length) ∧
    Monotone f.layout.packedLength ∧
    (∀ n, f.layout.packedLength n ≤ f.layout.byteLength) ∧
    ∀ n, f.layout.valueCount ≤ n → f.layout.packedLength n = f.layout.byteLength := by
  have hwf := f.wellFormed
  exact ⟨Checked.outputBound_zero hwf, fun mode vs packed => length_eq_packedLength_of_pack hwf,
    packedLength_mono f.layout, packedLength_le_byteLength f.layout,
    fun n => packedLength_of_valueCount_le⟩

/-- Two values cover the first of four groups, four the first two and the pad behind them, and nine
are more than there are slots. -/
theorem length_pack_eq_outputBound_groups :
    ∃ f : Format, f.text = "<B3BxH" ∧ Checked.outputBound 0 2 f.layout = .ok 1 ∧
      f.layout.pack .loose [.int 1, .int 2, .int 3, .int 4] = .ok [1, 2, 3, 4, 0] ∧
      f.layout.packedLength 4 = 5 ∧ f.layout.packedLength 2 ≤ f.layout.packedLength 4 ∧
      f.layout.packedLength 4 ≤ f.layout.byteLength ∧
      f.layout.packedLength 9 = f.layout.byteLength := by
  obtain ⟨layout, hlayout⟩ : ∃ layout : Layout, layout = [⟨1, .uint8, .little, 1⟩,
      ⟨3, .uint8, .little, 1⟩, ⟨1, .pad, .little, 1⟩, ⟨1, .uint16, .little, 2⟩] := ⟨_, rfl⟩
  have hparse : Layout.parse "<B3BxH" = .ok layout := by
    rw [hlayout]
    decide
  have hpack : layout.pack .loose [.int 1, .int 2, .int 3, .int 4] = .ok [1, 2, 3, 4, 0] := by
    rw [hlayout]
    decide
  have hcount : layout.valueCount ≤ 9 := by
    rw [hlayout]
    decide
  have hshort : layout.packedLength 2 = 1 := by
    rw [hlayout]
    decide
  obtain ⟨hwalk, hlength, hmono, hle, hfull⟩ :=
    length_pack_eq_outputBound ⟨"<B3BxH", layout, hparse⟩
  exact ⟨⟨"<B3BxH", layout, hparse⟩, rfl, (hwalk 2).trans (congrArg _ hshort), hpack,
    (hlength _ _ _ hpack).symm, hmono (by decide), hle 4, hfull 9 hcount⟩

end Format
end BinaryRecord
