import BinaryRecord.Layout.Group

/-!
# Layouts

A layout is the list of its groups. It covers a number of bytes and has one slot
for each value. Counts may be far larger than any input, so what runs asks only
for as many slots as it has items.

## Main definitions

* `Layout.byteLength`, `Layout.valueCount`: the totals over the groups.
* `Layout.slots`: the group that serves each value.
* `Mode`: what happens when values or bytes run out.
-/

namespace BinaryRecord

/-- What packing and unpacking do when values or bytes run out. -/
inductive Mode where
  /-- Any shortfall is an error. -/
  | strict
  /-- Work stops before the first group that is not covered. -/
  | loose
  deriving DecidableEq, Repr

namespace Mode

instance : Inhabited Mode := ⟨strict⟩

/-- The mode for a flag that asks for loose operation. -/
def ofLooseFlag (flag : Bool) : Mode := if flag then loose else strict

/-- Is every shortfall an error? -/
def isStrict (m : Mode) : Bool := m = strict

end Mode

/-- The groups of a record, in order. -/
abbrev Layout := List Group

namespace Layout

/-- Bytes that the layout covers. -/
def byteLength : Layout → Nat
  | [] => 0
  | g :: layout => g.byteLength + byteLength layout

/-- Values that the layout takes up. -/
def valueCount : Layout → Nat
  | [] => 0
  | g :: layout => g.valueCount + valueCount layout

/-- The group that serves each value, in order. -/
def slots (layout : Layout) : List Group :=
  layout.flatMap fun g => List.replicate g.valueCount g

/-- The first `n` slots. -/
def firstSlots : (n : Nat) → Layout → List Group
  | _, [] => []
  | n, g :: layout =>
    List.replicate (min n g.valueCount) g ++ firstSlots (n - g.valueCount) layout

theorem firstSlots_eq_take (n : Nat) (layout : Layout) :
    firstSlots n layout = layout.slots.take n := by
  induction layout generalizing n with
  | nil => simp [firstSlots, slots]
  | cons g layout ih =>
    have ih' := ih (n - g.valueCount)
    simp only [slots] at ih'
    simp [firstSlots, slots, ih', List.take_append, List.take_replicate]

theorem length_slots (layout : Layout) : layout.slots.length = layout.valueCount := by
  induction layout with
  | nil => rfl
  | cons g layout ih =>
    simp only [slots, valueCount] at *
    simp [ih]

/-- Where a scan stopped and what it lacked there. -/
structure Shortage where
  /-- The code of the group that was not covered. -/
  code : Code
  /-- Values or bytes that were left. -/
  left : Nat
  /-- Values or bytes that the group needs. -/
  needed : Nat
  deriving DecidableEq, Repr

end Layout
end BinaryRecord
