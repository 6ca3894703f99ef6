import BinaryRecord.Layout.Format
import BinaryRecord.Proofs.Format.Step
import BinaryRecord.Proofs.Layout.WellFormed

/-!
# Limits of a scan

A scan keeps its pending count and its total within their limits, so the layout
that it ends with is well formed.

## Main definitions

* `Scanner.Bounded`: the limits that every step keeps.
-/

namespace BinaryRecord

namespace Scanner
variable {s s' : Scanner} {c : Char} {g? : Option Group}

/-- The pending count and the total are within their limits. -/
structure Bounded (s : Scanner) : Prop where
  pending : ∀ p ∈ s.pending, p.value ≤ repeatLimit
  total : s.total ≤ byteLimit

theorem bounded_start : start.Bounded := ⟨by simp [start], by decide⟩

theorem Bounded.count_le (h : s.Bounded) : s.count.value ≤ repeatLimit := by
  unfold count
  cases hp : s.pending with
  | none =>
    change 1 ≤ repeatLimit
    decide
  | some p => exact h.pending p hp

/-- What a step adds to the total is the length of the group that it closes. -/
theorem Step.total_eq (h : Step s c s' g?) :
    s'.total = s.total + Layout.byteLength g?.toList := by
  cases h <;> rfl

theorem Step.bounded (h : Step s c s' g?) (hs : s.Bounded) : s'.Bounded := by
  cases h with
  | digit _ hlimit => exact ⟨by simpa using hlimit, hs.total⟩
  | marker _ => exact ⟨hs.pending, hs.total⟩
  | blank _ _ => exact ⟨hs.pending, hs.total⟩
  | close code _ htotal => exact ⟨by simp, htotal⟩

theorem Step.wellFormed (h : Step s c s' g?) (hs : s.Bounded) : ∀ g ∈ g?, g.WellFormed := by
  cases h with
  | close code hcount _ =>
    rintro g ⟨⟩
    exact ⟨Nat.one_le_iff_ne_zero.mpr hcount, hs.count_le, rfl⟩
  | _ => simp

/-- A whole run closes well-formed groups only and keeps the total within its limit. -/
theorem run_wellFormed {cs : List Char} {layout : Layout} (hs : s.Bounded)
    (h : s.run cs = .ok layout) :
    (∀ g ∈ layout, g.WellFormed) ∧ s.total + layout.byteLength ≤ byteLimit := by
  induction cs generalizing s layout with
  | nil =>
    obtain ⟨-, rfl⟩ := run_nil_eq_ok_iff.mp h
    exact ⟨by simp, hs.total⟩
  | cons c cs ih =>
    obtain ⟨s', g?, rest, hstep, hrest, rfl⟩ := run_cons_eq_ok_iff.mp h
    obtain ⟨hgroups, htotal⟩ := ih (hstep.bounded hs) hrest
    refine ⟨?_, ?_⟩
    · intro g hg
      rcases List.mem_append.mp hg with hg | hg
      · exact hstep.wellFormed hs g (by simpa using hg)
      · exact hgroups g hg
    · rw [hstep.total_eq] at htotal
      cases g? <;> simp only [Option.toList, List.nil_append, List.cons_append,
        Layout.byteLength] at htotal ⊢ <;> omega

end Scanner

namespace Layout

theorem wellFormed_of_parse {text : String} {layout : Layout} (h : parse text = .ok layout) :
    layout.WellFormed := by
  obtain ⟨hgroups, htotal⟩ := Scanner.run_wellFormed Scanner.bounded_start h
  exact ⟨hgroups, by simpa [Scanner.start] using htotal⟩

end Layout

namespace Format

theorem wellFormed (f : Format) : f.layout.WellFormed := Layout.wellFormed_of_parse f.parse_text

end Format
end BinaryRecord
