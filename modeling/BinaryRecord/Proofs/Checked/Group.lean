import BinaryRecord.Proofs.Checked.Code
import BinaryRecord.Proofs.Checked.Parse
import BinaryRecord.Proofs.Group.Units
import BinaryRecord.Proofs.Layout.Loose

/-!
# Groups and totals with checks

The length of a unit is never zero and divides the bytes of its group, so these are cut without a
trap. The totals of a layout that was read stay within the limit of its length, since each value
takes up a byte at least.

## Main definitions

* `Checked.encodeAll`, `Checked.decodeAll`: storing and reading one group.
* `Checked.byteLength`, `Checked.valueCount`: the totals.
-/

namespace BinaryRecord.Checked
variable {g : Group} {layout : Layout} {bs : Bytes}

/-! ## One group -/

/-- Bytes of one unit. -/
def unitLength (g : Group) : Run ℕ := if g.code.isString then groupLength g else .ok g.size

/-- The bytes of values for the group's units. -/
def encodeAll (g : Group) (vs : List Value) : Run Bytes := do
  let units ← vs.mapM fun v => do encode g.code (← unitLength g) g.order v
  return units.flatten

/-- The values of the group's bytes. -/
def decodeAll (g : Group) (bs : Bytes) : Run (List Value) := do
  let units ← pieces (← unitLength g) bs
  let read ← units.mapM (decode g.code g.order)
  return read.filterMap id

theorem unitLength_eq (h : g.WellFormed) : unitLength g = .ok g.unitLength := by
  unfold unitLength Group.unitLength
  split
  · exact groupLength_eq h.count_le h.size_eq
  · rfl

theorem encodeAll_eq (h : g.WellFormed) (vs : List Value) :
    encodeAll g vs = lift (g.encode vs) := by
  simp only [encodeAll, unitLength_eq h, ok_bind, encode_eq h.unitLength_pos, lift_mapM,
    Group.encode]
  cases vs.mapM (g.code.encode g.unitLength g.order) <;> rfl

theorem decodeAll_eq (h : g.WellFormed) (hlen : bs.length = g.byteLength) :
    decodeAll g bs = .ok (g.decode bs) := by
  have hcount : bs.length / g.unitLength = g.units := by
    rw [hlen, ← g.units_mul_unitLength, Nat.mul_div_cancel _ h.unitLength_pos]
  have hread : ∀ units : List Bytes,
      units.mapM (decode g.code g.order) = .ok (units.map (g.code.decode g.order)) := by
    intro units
    simp only [funext (decode_eq g.code g.order)]
    exact List.mapM_pure
  simp only [decodeAll, unitLength_eq h, ok_bind, pieces_eq h.unitLength_pos, hcount, hread,
    List.filterMap_map]
  rfl

/-! ## Totals -/

/-- The sum of a measure over the groups. -/
def total (measure : Group → Run ℕ) (layout : Layout) : Run ℕ :=
  layout.foldlM (fun sum g => do add sum (← measure g)) 0

/-- Bytes that the layout covers. -/
def byteLength (layout : Layout) : Run ℕ := total groupLength layout

/-- Values that the layout takes up. -/
def valueCount (layout : Layout) : Run ℕ := total (fun g => .ok g.valueCount) layout

/-- A sum that stays below the limit of a word does not trap on the way. -/
theorem total_eq {measure : Group → Run ℕ} {size : Group → ℕ}
    (hmeasure : ∀ g ∈ layout, measure g = .ok (size g)) (h : (layout.map size).sum < wordLimit) :
    total measure layout = .ok (layout.map size).sum := by
  suffices hfrom : ∀ start, start + (layout.map size).sum < wordLimit →
      layout.foldlM (fun sum g => do add sum (← measure g)) start =
        .ok (start + (layout.map size).sum) by
    simpa [total] using hfrom 0 (by omega)
  clear h
  induction layout with
  | nil => simp [pure, Except.pure]
  | cons g layout ih =>
    intro start hstart
    obtain ⟨hg, hrest⟩ := List.forall_mem_cons.mp hmeasure
    rw [List.map_cons, List.sum_cons] at hstart
    rw [List.foldlM_cons, hg, ok_bind, add_eq (by omega), ok_bind, ih hrest _ (by omega),
      List.map_cons, List.sum_cons, Nat.add_assoc]

theorem byteLength_lt (h : layout.WellFormed) : layout.byteLength < wordLimit := by
  have hroom : byteLimit < wordLimit := by decide
  exact Nat.lt_of_le_of_lt h.byteLength_le hroom

theorem valueCount_lt (h : layout.WellFormed) : layout.valueCount < wordLimit :=
  Nat.lt_of_le_of_lt (Layout.valueCount_le_byteLength h.groups) (byteLength_lt h)

theorem byteLength_eq (h : layout.WellFormed) : byteLength layout = .ok layout.byteLength := by
  have hlt := byteLength_lt h
  rw [Layout.byteLength_eq_sum] at hlt ⊢
  apply total_eq _ hlt
  intro g hg
  exact groupLength_eq (h.groups g hg).count_le (h.groups g hg).size_eq

theorem valueCount_eq (h : layout.WellFormed) : valueCount layout = .ok layout.valueCount := by
  have hlt := valueCount_lt h
  rw [Layout.valueCount_eq_sum] at hlt ⊢
  exact total_eq (fun _ _ => rfl) hlt

end BinaryRecord.Checked
