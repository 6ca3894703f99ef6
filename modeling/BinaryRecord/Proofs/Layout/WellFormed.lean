import BinaryRecord.Layout.Parse
import BinaryRecord.Proofs.Code.Stored

/-!
# Well-formed layouts

What every layout that was read from a format satisfies, and what follows for the
units of its groups: none is empty, and a group that is no pad takes up a value.

## Main definitions

* `Group.WellFormed`: the count is within its limits and the size is the code's.
* `Layout.WellFormed`: so is every group, and the total is within its limit.
-/

namespace BinaryRecord

/-- The count is within its limits and the size of an element is the code's. -/
structure Group.WellFormed (g : Group) : Prop where
  one_le_count : 1 ≤ g.count
  count_le : g.count ≤ repeatLimit
  size_eq : g.size = g.code.width

/-- Every group is well formed and the total length is within its limit. -/
structure Layout.WellFormed (layout : Layout) : Prop where
  groups : ∀ g ∈ layout, g.WellFormed
  byteLength_le : layout.byteLength ≤ byteLimit

namespace Group

/-- A string is counted in bytes, so its length is its count. -/
theorem width_of_isString {c : Code} (h : c.isString = true) : c.width = 1 := by
  cases c <;> simp_all [Code.isString, Code.width, Code.entry]

namespace WellFormed
variable {g : Group}

theorem unitLength_eq (h : g.WellFormed) :
    g.unitLength = if g.code.isString then g.count else g.code.width := by
  rw [unitLength, byteLength, h.size_eq]
  by_cases hstring : g.code.isString = true
  · rw [if_pos hstring, if_pos hstring, width_of_isString hstring, Nat.mul_one]
  · rw [if_neg hstring, if_neg hstring]

theorem unitLength_pos (h : g.WellFormed) : 0 < g.unitLength := by
  rw [h.unitLength_eq]
  split
  · exact h.one_le_count
  · exact g.code.one_le_width

theorem units_pos (h : g.WellFormed) : 0 < g.units := by
  rw [units]
  split
  · exact Nat.one_pos
  · exact h.one_le_count

theorem byteLength_pos (h : g.WellFormed) : 0 < g.byteLength := by
  rw [← units_mul_unitLength]
  exact Nat.mul_pos h.units_pos h.unitLength_pos

theorem valueCount_pos (h : g.WellFormed) (hpad : g.code.isPad = false) : 0 < g.valueCount := by
  rw [valueCount, hpad, if_neg Bool.false_ne_true]
  exact h.units_pos

end WellFormed

theorem valueCount_of_isPad {g : Group} (h : g.code.isPad = true) : g.valueCount = 0 := if_pos h

/-- A group that takes values is no pad. -/
theorem isPad_of_valueCount_ne_zero {g : Group} (h : g.valueCount ≠ 0) : g.code.isPad = false := by
  by_contra hpad
  exact h (valueCount_of_isPad (by simpa using hpad))

theorem valueCount_of_not_isPad {g : Group} (h : g.code.isPad = false) :
    g.valueCount = g.units := by
  rw [valueCount, h, if_neg Bool.false_ne_true]

end Group
end BinaryRecord
