import BinaryRecord.Layout.Basic
import BinaryRecord.Proofs.Group.Units

/-!
# The units of a layout

Packing is two things one after the other: each value is stored on its own under its
slot, and the units are laid out with the pads between them. Unpacking is the same
backwards. Here the two are taken apart, so that what happens to one unit and where
it lies are told separately.

## Main definitions

* `Layout.encodings`, `Layout.decodings`: all units, each under its slot.
* `Layout.assemble`, `Layout.dissect`: from units to bytes and back.
* `Layout.Fits`: the units have the lengths that the slots ask for.
-/

namespace BinaryRecord.Layout
variable {g : Group} {layout : Layout}

/-! ## Slots -/

@[simp] theorem slots_nil : slots [] = [] := rfl

theorem slots_cons (g : Group) (layout : Layout) :
    slots (g :: layout) = List.replicate g.valueCount g ++ layout.slots := rfl

theorem slots_append (layout layout' : Layout) :
    slots (layout ++ layout') = layout.slots ++ layout'.slots := List.flatMap_append

@[simp] theorem valueCount_append (layout layout' : Layout) :
    valueCount (layout ++ layout') = layout.valueCount + layout'.valueCount := by
  rw [← length_slots, slots_append, List.length_append, length_slots, length_slots]

@[simp] theorem byteLength_append (layout layout' : Layout) :
    byteLength (layout ++ layout') = layout.byteLength + layout'.byteLength := by
  induction layout with
  | nil => simp [byteLength]
  | cons g layout ih => rw [List.cons_append, byteLength, byteLength, ih, Nat.add_assoc]

theorem isPad_of_mem_slots {g : Group} (h : g ∈ layout.slots) :
    g ∈ layout ∧ g.code.isPad = false := by
  obtain ⟨g', hmem, hg⟩ := List.mem_flatMap.mp h
  obtain ⟨hcount, rfl⟩ := List.mem_replicate.mp hg
  exact ⟨hmem, Group.isPad_of_valueCount_ne_zero hcount⟩

/-- A function of each slot and its item, split at the end of the first group. -/
theorem zipWith_slots_cons {α β : Type} (f : Group → α → β) {as : List α}
    (h : g.valueCount ≤ as.length) :
    List.zipWith f (slots (g :: layout)) as =
      (as.take g.valueCount).map (f g) ++ List.zipWith f layout.slots (as.drop g.valueCount) := by
  have hreplicate : ∀ (n : ℕ) (as : List α), n = as.length →
      List.zipWith f (List.replicate n g) as = as.map (f g) := by
    rintro _ as rfl
    induction as with
    | nil => rfl
    | cons a as ih => rw [List.length_cons, List.replicate_succ, List.zipWith_cons_cons, ih]; rfl
  have hlen : (as.take g.valueCount).length = g.valueCount := by rw [List.length_take]; omega
  calc List.zipWith f (slots (g :: layout)) as
      = List.zipWith f (List.replicate g.valueCount g ++ layout.slots)
          (as.take g.valueCount ++ as.drop g.valueCount) := by
        rw [slots_cons, List.take_append_drop]
    _ = _ := by rw [List.zipWith_append (by simp [hlen]), hreplicate _ _ hlen.symm]

/-- Items behind the last slot make no difference. -/
theorem zipWith_slots_take {α β : Type} (f : Group → α → β) (layout : Layout) (as : List α) :
    List.zipWith f layout.slots (as.take layout.valueCount) = List.zipWith f layout.slots as := by
  apply List.ext_getElem?
  intro j
  rw [List.getElem?_zipWith, List.getElem?_zipWith]
  by_cases hj : j < layout.valueCount
  · rw [List.getElem?_take_of_lt hj]
  · have hnone : layout.slots[j]? = none := by
      rw [List.getElem?_eq_none_iff, length_slots]
      omega
    rw [hnone]

/-! ## From units to bytes -/

/-- The values stored each on its own under its slot. -/
def encodings (layout : Layout) (vs : List Value) : List (Except Error Bytes) :=
  List.zipWith Group.encodeUnit layout.slots vs

/-- The units laid out in order, with the pads between them. -/
def assemble : Layout → List Bytes → Bytes
  | [], _ => []
  | g :: layout, units =>
    g.join (units.take g.valueCount) ++ assemble layout (units.drop g.valueCount)

/-- The units have the lengths that the slots ask for. -/
def Fits (layout : Layout) (units : List Bytes) : Prop :=
  layout.slots.map Group.unitLength = units.map List.length

/-- Where there is a slot there is a unit of its length. -/
theorem Fits.exists_unit {units : List Bytes} (h : layout.Fits units) {j : ℕ}
    (hg : layout.slots[j]? = some g) :
    ∃ unit, units[j]? = some unit ∧ unit.length = g.unitLength := by
  have hlen := congrArg (·[j]?) h
  simp only [List.getElem?_map, hg, Option.map_some] at hlen
  exact Option.map_eq_some_iff.mp hlen.symm

/-- Units that fit a layout are those of its first group followed by those of the rest. -/
theorem fits_cons_iff {units : List Bytes} :
    Fits (g :: layout) units ↔ ∃ first rest, units = first ++ rest ∧
      first.length = g.valueCount ∧ (∀ unit ∈ first, unit.length = g.unitLength) ∧
      layout.Fits rest := by
  rw [Fits, slots_cons, List.map_append, List.map_replicate, eq_comm, List.map_eq_append_iff]
  constructor
  · rintro ⟨first, rest, rfl, hfirst, hrest⟩
    refine ⟨first, rest, rfl, ?_, ?_, hrest.symm⟩
    · simpa using congrArg List.length hfirst
    · intro unit hunit
      exact (List.eq_replicate_iff.mp hfirst).2 _ (List.mem_map_of_mem hunit)
  · rintro ⟨first, rest, rfl, hlen, hfirst, hrest⟩
    refine ⟨first, rest, rfl, ?_, hrest.symm⟩
    exact List.eq_replicate_iff.mpr ⟨by simpa using hlen, by simpa using hfirst⟩

theorem assemble_cons_append {first rest : List Bytes} (hlen : first.length = g.valueCount) :
    assemble (g :: layout) (first ++ rest) = g.join first ++ layout.assemble rest := by
  rw [assemble, List.take_left' hlen, List.drop_left' hlen]

theorem length_assemble {units : List Bytes} (h : layout.Fits units) :
    (layout.assemble units).length = layout.byteLength := by
  induction layout generalizing units with
  | nil => rfl
  | cons g layout ih =>
    obtain ⟨first, rest, rfl, hlen, hfirst, hrest⟩ := fits_cons_iff.mp h
    rw [assemble_cons_append hlen, List.length_append, Group.length_join hlen hfirst, ih hrest,
      byteLength]

/-! ## From bytes to units -/

/-- The units that the slots cut out of the bytes. -/
def dissect : Layout → Bytes → List Bytes
  | [], _ => []
  | g :: layout, bs =>
    Group.cut g.unitLength g.valueCount bs ++ dissect layout (bs.drop g.byteLength)

/-- The units read each on its own under its slot. -/
def decodings (layout : Layout) (bs : Bytes) : List (Option Value) :=
  List.zipWith Group.decodeUnit layout.slots (layout.dissect bs)

/-- Bytes for a layout are bytes for its first group and, behind them, for the rest. -/
theorem byteLength_cons_le {bs : Bytes} (h : byteLength (g :: layout) ≤ bs.length) :
    g.byteLength ≤ bs.length ∧ layout.byteLength ≤ (bs.drop g.byteLength).length := by
  rw [byteLength] at h
  rw [List.length_drop]
  omega

/-- Only the bytes of the layout are looked at. -/
theorem dissect_take {n : ℕ} {bs : Bytes} (h : layout.byteLength ≤ n) :
    layout.dissect (bs.take n) = layout.dissect bs := by
  induction layout generalizing bs n with
  | nil => rfl
  | cons g layout ih =>
    rw [byteLength] at h
    rw [dissect, dissect, List.drop_take, ih (by omega),
      Group.cut_take _ _ (Nat.le_trans g.valueCount_mul_unitLength_le (by omega))]

theorem fits_dissect {bs : Bytes} (h : layout.byteLength ≤ bs.length) :
    layout.Fits (layout.dissect bs) := by
  induction layout generalizing bs with
  | nil => rfl
  | cons g layout ih =>
    obtain ⟨hg, hrest⟩ := byteLength_cons_le h
    have hunits := Nat.le_trans g.valueCount_mul_unitLength_le hg
    refine fits_cons_iff.mpr ⟨_, _, rfl, Group.length_cut .., ?_, ih hrest⟩
    intro unit hunit
    exact Group.length_of_mem_cut hunits hunit

/-- Units that fit are found again where they were laid out. -/
theorem dissect_assemble {units : List Bytes} (h : layout.Fits units) :
    layout.dissect (layout.assemble units) = units := by
  induction layout generalizing units with
  | nil =>
    have hnil : units = [] := by simpa [Fits, eq_comm] using h
    rw [hnil]
    rfl
  | cons g layout ih =>
    obtain ⟨first, rest, rfl, hlen, hfirst, hrest⟩ := fits_cons_iff.mp h
    have hjoin := Group.length_join hlen hfirst
    rw [assemble_cons_append hlen, dissect, Group.cut_join_append hlen hfirst,
      List.drop_left' hjoin, ih hrest]

end BinaryRecord.Layout
