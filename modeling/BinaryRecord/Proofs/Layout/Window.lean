import BinaryRecord.Proofs.Layout.Units

/-!
# Windows

Every slot of a layout has a window of bytes. The windows of a group lie side by side
from the start of the group on, and a group starts where those before it end.

## Main definitions

* `Window`: a group and a place for one unit of it.
* `Layout.windows`: the windows of a layout that starts at an offset.
-/

namespace BinaryRecord

/-- The place of one unit of a group. -/
structure Window where
  /-- The group of the unit. -/
  group : Group
  /-- The offset of the first byte. -/
  start : ℕ

namespace Window

/-- The bytes in the window. -/
def slice (w : Window) (bs : Bytes) : Bytes := (bs.drop w.start).take w.group.unitLength

/-- The byte at an offset lies in the window. -/
def Covers (w : Window) (p : ℕ) : Prop := w.start ≤ p ∧ p < w.start + w.group.unitLength

end Window

namespace Group
variable {g : Group}

/-- The windows of a group that starts at an offset. -/
def windows (g : Group) (offset : ℕ) : List Window :=
  (List.range g.valueCount).map fun u => ⟨g, offset + u * g.unitLength⟩

@[simp] theorem length_windows (g : Group) (offset : ℕ) :
    (g.windows offset).length = g.valueCount := by
  simp [windows]

theorem getElem?_windows {u : ℕ} (offset : ℕ) (hu : u < g.valueCount) :
    (g.windows offset)[u]? = some ⟨g, offset + u * g.unitLength⟩ := by
  simp [windows, hu]

@[simp] theorem map_group_windows (g : Group) (offset : ℕ) :
    (g.windows offset).map (·.group) = List.replicate g.valueCount g := by
  simp [windows, Function.comp_def]

/-- The pieces that a byte string is cut into lie side by side. -/
theorem cut_eq_map_range (length pieces : ℕ) (bs : Bytes) :
    cut length pieces bs =
      (List.range pieces).map fun u => (bs.drop (u * length)).take length := by
  induction pieces generalizing bs with
  | zero => rfl
  | succ pieces ih =>
    have hstep : ∀ u, (bs.drop length).drop (u * length) = bs.drop ((u + 1) * length) := by
      intro u
      rw [List.drop_drop, Nat.succ_mul, Nat.add_comm]
    simp [cut, ih, List.range_succ_eq_map, Function.comp_def, hstep]

theorem map_slice_windows (g : Group) (offset : ℕ) (bs : Bytes) :
    (g.windows offset).map (·.slice bs) = cut g.unitLength g.valueCount (bs.drop offset) := by
  simp [windows, cut_eq_map_range, Window.slice, Function.comp_def]

/-- Every byte of a group that is no pad lies in one of its windows. -/
theorem exists_window_covers (hpad : g.code.isPad = false) {offset p : ℕ}
    (hp : p < g.byteLength) : ∃ w ∈ g.windows offset, w.Covers (offset + p) := by
  rw [← units_mul_unitLength, ← valueCount_of_not_isPad hpad] at hp
  have hpos : 0 < g.unitLength := Nat.pos_of_lt_mul_left hp
  have hu : p / g.unitLength < g.valueCount := Nat.div_lt_of_lt_mul (by rwa [Nat.mul_comm] at hp)
  refine ⟨_, List.mem_of_getElem? (getElem?_windows offset hu), ?_⟩
  have hdiv := Nat.div_add_mod p g.unitLength
  have hmod := Nat.mod_lt p hpos
  rw [Nat.mul_comm] at hdiv
  constructor <;> dsimp only <;> omega

end Group

namespace Layout
variable {layout : Layout} {g : Group}

/-- The windows of a layout that starts at an offset, one for each slot. -/
def windows (offset : ℕ) : Layout → List Window
  | [] => []
  | g :: layout => g.windows offset ++ windows (offset + g.byteLength) layout

theorem map_group_windows (offset : ℕ) (layout : Layout) :
    (windows offset layout).map (·.group) = layout.slots := by
  induction layout generalizing offset with
  | nil => rfl
  | cons g layout ih => rw [windows, List.map_append, Group.map_group_windows, ih, slots_cons]

theorem getElem?_slots {offset j : ℕ} {w : Window} (h : (windows offset layout)[j]? = some w) :
    layout.slots[j]? = some w.group := by
  rw [← map_group_windows offset layout, List.getElem?_map, h, Option.map_some]

theorem length_windows (offset : ℕ) (layout : Layout) :
    (windows offset layout).length = layout.valueCount := by
  rw [← length_slots, ← map_group_windows offset layout, List.length_map]

/-- A group starts where the groups before it end, and its windows lie side by side. -/
theorem getElem?_windows {i u : ℕ} (offset : ℕ) (hg : layout[i]? = some g)
    (hu : u < g.valueCount) :
    (windows offset layout)[valueCount (layout.take i) + u]? =
      some ⟨g, offset + byteLength (layout.take i) + u * g.unitLength⟩ := by
  induction layout generalizing offset i with
  | nil => simp at hg
  | cons g' layout ih =>
    cases i with
    | zero =>
      obtain rfl : g' = g := by simpa using hg
      rw [windows, List.getElem?_append_left (by simpa [valueCount] using hu)]
      simpa [valueCount, byteLength] using Group.getElem?_windows offset hu
    | succ i =>
      have hrest := ih (offset + g'.byteLength) (by simpa using hg)
      rw [windows, List.take_succ_cons, valueCount, byteLength,
        List.getElem?_append_right (by simp; omega), Group.length_windows,
        Nat.add_assoc g'.valueCount, Nat.add_sub_cancel_left, hrest, Nat.add_assoc offset]

/-- The units that the slots cut out of the bytes are those in their windows. -/
theorem dissect_drop (offset : ℕ) (layout : Layout) (bs : Bytes) :
    layout.dissect (bs.drop offset) = (windows offset layout).map (·.slice bs) := by
  induction layout generalizing offset with
  | nil => rfl
  | cons g layout ih =>
    rw [dissect, windows, List.map_append, Group.map_slice_windows, List.drop_drop, ih]

/-- Bytes outside all windows are fill. -/
theorem getElem?_assemble_of_not_covers {units : List Bytes} (offset : ℕ) {p : ℕ}
    (hfits : layout.Fits units) (hp : p < layout.byteLength)
    (houtside : ∀ w ∈ windows offset layout, ¬ w.Covers (offset + p)) :
    (layout.assemble units)[p]? = some fillByte := by
  induction layout generalizing units offset p with
  | nil => simp [byteLength] at hp
  | cons g layout ih =>
    obtain ⟨first, rest, rfl, hlen, hfirst, hrest⟩ := fits_cons_iff.mp hfits
    have hjoin := Group.length_join hlen hfirst
    rw [byteLength] at hp
    rw [assemble_cons_append hlen]
    by_cases hin : p < g.byteLength
    · rw [List.getElem?_append_left (by omega)]
      cases hpad : g.code.isPad with
      | true => simp [Group.join_of_isPad hpad, fill, hin]
      | false =>
        obtain ⟨w, hw, hcovers⟩ := Group.exists_window_covers hpad hin
        exact absurd hcovers (houtside w (List.mem_append_left _ hw))
    · rw [List.getElem?_append_right (by omega), hjoin]
      apply ih (offset + g.byteLength) hrest (by omega)
      intro w hw
      have hplace : offset + g.byteLength + (p - g.byteLength) = offset + p := by omega
      rw [hplace]
      exact houtside w (List.mem_append_right _ hw)

end Layout
end BinaryRecord
