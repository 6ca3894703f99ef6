import BinaryRecord.Proofs.Command.Listing
import BinaryRecord.Proofs.Format.Bounds
import BinaryRecord.Proofs.Layout.Scans
import BinaryRecord.Proofs.Layout.Window

/-!
# Values and their windows

Packing, unpacking, the slots and the listing that the command prints all place a value in
the same window. A value is stored in its window alone, and what is read for it is read from
there alone, whatever the other values are.

## Main definitions

* `Layout.Placed`: each value is stored in its window, and all else is fill.
-/

namespace BinaryRecord

namespace Layout
variable {layout : Layout} {vs : List Value} {bs packed : Bytes}

/-- What is stored for a value is stored for it on its own, under the group of its window. -/
theorem getElem?_encodings_eq_some_iff {j : ℕ} {r : Except Error Bytes} :
    (layout.encodings vs)[j]? = some r ↔
      ∃ w v, (windows 0 layout)[j]? = some w ∧ vs[j]? = some v ∧ w.group.encodeUnit v = r := by
  rw [encodings, ← map_group_windows 0 layout, List.zipWith_map_left]
  exact List.getElem?_zipWith_eq_some

/-- What is read for a slot is read from its window alone. -/
theorem decodings_eq_map_windows (layout : Layout) (bs : Bytes) :
    layout.decodings bs = (windows 0 layout).map fun w => w.group.decodeUnit (w.slice bs) := by
  have hdissect := dissect_drop 0 layout bs
  rw [List.drop_zero] at hdissect
  rw [decodings, hdissect, ← map_group_windows 0 layout, List.zipWith_map, List.zipWith_self]

/-- Each value is stored in its window, and all else is fill. -/
structure Placed (layout : Layout) (vs : List Value) (packed : Bytes) : Prop where
  length_eq : packed.length = layout.byteLength
  encodeUnit_eq : ∀ (j : ℕ) (w : Window) (v : Value), (windows 0 layout)[j]? = some w →
    vs[j]? = some v → w.group.encodeUnit v = .ok (w.slice packed)
  fill_eq : ∀ p < packed.length, (∀ w ∈ windows 0 layout, ¬ w.Covers p) → packed[p]? = some 0

theorem placed_of_pack (hwf : layout.WellFormed) (h : layout.pack .strict vs = .ok packed) :
    layout.Placed vs packed := by
  obtain ⟨hlen, units, hunits, rfl⟩ := pack_strict_eq_ok_iff.mp h
  have hfits := fits_of_encodings hwf hlen hunits
  have hslices : units = (windows 0 layout).map (·.slice (layout.assemble units)) := by
    rw [← dissect_drop, List.drop_zero, dissect_assemble hfits]
  constructor
  · exact length_assemble hfits
  · intro j w v hw hv
    obtain ⟨unit, hunit, hstored⟩ := exists_unit_of_encodings hunits (getElem?_slots hw) hv
    rw [hslices, List.getElem?_map, hw, Option.map_some, Option.some.injEq] at hunit
    rw [hstored, hunit]
  · intro p hp houtside
    rw [length_assemble hfits] at hp
    exact getElem?_assemble_of_not_covers 0 hfits hp (by simpa using houtside)

/-- Packing fails with the error of the first value that cannot be stored on its own. -/
theorem pack_strict_eq_error_iff (hlen : layout.valueCount ≤ vs.length) {e : Error} :
    layout.pack .strict vs = .error e ↔
      ∃ (j : ℕ) (w : Window) (v : Value), (windows 0 layout)[j]? = some w ∧ vs[j]? = some v ∧
        w.group.encodeUnit v = .error e ∧
        ∀ i < j, ∃ (w : Window) (v : Value) (unit : Bytes), (windows 0 layout)[i]? = some w ∧
          vs[i]? = some v ∧ w.group.encodeUnit v = .ok unit := by
  rw [pack_strict_of_le hlen, Except.map_eq_error_iff, Except.all_eq_error_iff]
  simp only [getElem?_encodings_eq_some_iff]
  constructor
  · rintro ⟨j, ⟨w, v, hw, hv, he⟩, hbefore⟩
    refine ⟨j, w, v, hw, hv, he, ?_⟩
    intro i hi
    obtain ⟨unit, w, v, hw, hv, hunit⟩ := hbefore i hi
    exact ⟨w, v, unit, hw, hv, hunit⟩
  · rintro ⟨j, w, v, hw, hv, he, hbefore⟩
    refine ⟨j, ⟨w, v, hw, hv, he⟩, ?_⟩
    intro i hi
    obtain ⟨w, v, unit, hw, hv, hunit⟩ := hbefore i hi
    exact ⟨unit, w, v, hw, hv, hunit⟩

/-- Packing succeeds exactly if every value can be stored on its own. -/
theorem exists_pack_strict_iff (hlen : layout.valueCount ≤ vs.length) :
    (∃ packed, layout.pack .strict vs = .ok packed) ↔
      ∀ (j : ℕ) (w : Window) (v : Value), (windows 0 layout)[j]? = some w → vs[j]? = some v →
        ∃ unit, w.group.encodeUnit v = .ok unit := by
  constructor
  · rintro ⟨packed, hpack⟩ j w v hw hv
    obtain ⟨-, units, hunits, -⟩ := pack_strict_eq_ok_iff.mp hpack
    obtain ⟨unit, -, hstored⟩ := exists_unit_of_encodings hunits (getElem?_slots hw) hv
    exact ⟨unit, hstored⟩
  · intro hstored
    cases hpack : layout.pack .strict vs with
    | ok packed => exact ⟨packed, rfl⟩
    | error e =>
      obtain ⟨j, w, v, hw, hv, he, -⟩ := (pack_strict_eq_error_iff hlen).mp hpack
      obtain ⟨unit, hunit⟩ := hstored j w v hw hv
      rw [hunit] at he
      cases he

/-- Unpacking gives for each window what it holds, read on its own. -/
theorem exists_unpack_strict_eq (hwf : layout.WellFormed) (hlen : layout.byteLength ≤ bs.length) :
    ∃ ws, layout.unpack .strict bs = .ok ws ∧ ws.length = layout.valueCount ∧
      ∀ (j : ℕ) (w : Window), (windows 0 layout)[j]? = some w →
        ∃ v, ws[j]? = some v ∧ w.group.decodeUnit (w.slice bs) = some v := by
  obtain ⟨ws, hws⟩ := exists_decodings_eq hwf.groups hlen
  refine ⟨ws, unpack_strict_of_le hlen hws, length_of_decodings_eq hlen hws, ?_⟩
  intro j w hw
  rw [decodings_eq_map_windows] at hws
  have hread := congrArg (·[j]?) hws
  simp only [List.getElem?_map, hw, Option.map_some] at hread
  obtain ⟨v, hv, hvalue⟩ := Option.map_eq_some_iff.mp hread.symm
  exact ⟨v, hv, hvalue.symm⟩

end Layout

/-- Every value has one window of bytes. The windows are those of the slots, and a group's
begin at the place that the command which measures the format prints for it. Given enough
values, packing succeeds exactly if each can be stored on its own, and then puts each into its
window and fill elsewhere; else it fails as the first value that cannot be stored does. Given
enough bytes, unpacking reads each window on its own. -/
theorem Format.values_in_windows (f : Format) :
    (Layout.windows 0 f.layout).map (·.group) = f.layout.slots ∧
    (∃ printed : String,
      (∀ w : Workspace, ∃ w', w.run (.calcsize ⟨f.text, true⟩) = (.ok (), w') ∧
        w'.stdout = w.stdout ++ printed) ∧
      (Calcsize.rows printed).length = f.layout.length ∧
      ∀ (i : ℕ) (g : Group), f.layout[i]? = some g →
        (Calcsize.rows printed)[i]? =
          some ["@" ++ toString (Layout.byteLength (f.layout.take i)), toString g.count, "x",
            s!"'{g.code.char}'", toString g.size, "bytes", "each", g.order.label] ∧
        ∀ u < g.valueCount,
          (Layout.windows 0 f.layout)[Layout.valueCount (f.layout.take i) + u]? =
            some ⟨g, Layout.byteLength (f.layout.take i) + u * g.unitLength⟩) ∧
    (∀ vs : List Value, f.layout.valueCount ≤ vs.length →
      ((∃ packed, f.layout.pack .strict vs = .ok packed) ↔
        ∀ (j : ℕ) (w : Window) (v : Value), (Layout.windows 0 f.layout)[j]? = some w →
          vs[j]? = some v → ∃ unit, w.group.encodeUnit v = .ok unit) ∧
      (∀ packed, f.layout.pack .strict vs = .ok packed → f.layout.Placed vs packed) ∧
      ∀ e, f.layout.pack .strict vs = .error e ↔
        ∃ (j : ℕ) (w : Window) (v : Value), (Layout.windows 0 f.layout)[j]? = some w ∧
          vs[j]? = some v ∧ w.group.encodeUnit v = .error e ∧
          ∀ i < j, ∃ (w : Window) (v : Value) (unit : Bytes),
            (Layout.windows 0 f.layout)[i]? = some w ∧ vs[i]? = some v ∧
              w.group.encodeUnit v = .ok unit) ∧
    ∀ bs : Bytes, f.layout.byteLength ≤ bs.length →
      ∃ ws, f.layout.unpack .strict bs = .ok ws ∧ ws.length = f.layout.valueCount ∧
        ∀ (j : ℕ) (w : Window), (Layout.windows 0 f.layout)[j]? = some w →
          ∃ v, ws[j]? = some v ∧ w.group.decodeUnit (w.slice bs) = some v := by
  refine ⟨Layout.map_group_windows 0 f.layout,
    ⟨Calcsize.report f.layout, Calcsize.exists_run_fields f, ?_, ?_⟩, ?_, ?_⟩
  · rw [Calcsize.rows_report, Calcsize.length_groupRows]
  · intro i g hg
    refine ⟨?_, ?_⟩
    · rw [Calcsize.rows_report, Calcsize.getElem?_groupRows 0 hg, Nat.zero_add, Calcsize.row]
    · intro u hu
      simpa using Layout.getElem?_windows 0 hg hu
  · intro vs hlen
    exact ⟨Layout.exists_pack_strict_iff hlen, fun packed => Layout.placed_of_pack f.wellFormed,
      fun e => Layout.pack_strict_eq_error_iff hlen⟩
  · intro bs hlen
    exact Layout.exists_unpack_strict_eq f.wellFormed hlen

end BinaryRecord
