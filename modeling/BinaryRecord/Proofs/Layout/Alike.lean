import Mathlib.Data.List.Forall2
import BinaryRecord.Proofs.Layout.Errors

/-!
# Layouts that lie alike

Two layouts whose groups correspond one by one and cover the same bytes in the same units differ
only in how a unit is stored and read. If their groups store values alike, packing is alike, and
if their groups read units alike, unpacking is.

## Main definitions

* `Group.SameExtent`: the groups cover the same bytes in the same units.
* `Group.StoresAlike`, `Group.ReadsAlike`: the groups store values and read units alike.
-/

namespace BinaryRecord
open Except (Agree)

namespace Group
variable {g g' : Group} {ρ : Error → Error → Prop} {r t : Value → Value}

/-- The groups cover the same bytes in the same units. -/
structure SameExtent (g g' : Group) : Prop where
  isPad_eq : g'.code.isPad = g.code.isPad
  units_eq : g'.units = g.units
  unitLength_eq : g'.unitLength = g.unitLength

theorem SameExtent.refl (g : Group) : g.SameExtent g := ⟨rfl, rfl, rfl⟩

theorem SameExtent.valueCount_eq (h : g.SameExtent g') : g'.valueCount = g.valueCount := by
  rw [valueCount, valueCount, h.isPad_eq, h.units_eq]

theorem SameExtent.byteLength_eq (h : g.SameExtent g') : g'.byteLength = g.byteLength := by
  rw [← units_mul_unitLength, h.units_eq, h.unitLength_eq, units_mul_unitLength]

theorem SameExtent.join_eq (h : g.SameExtent g') (units : List Bytes) :
    g'.join units = g.join units := by
  rw [join, join, h.isPad_eq, h.byteLength_eq]

/-- What the one group stores for a value is what the other stores for the value in another form,
up to errors that correspond. -/
structure StoresAlike (ρ : Error → Error → Prop) (r : Value → Value) (g g' : Group) : Prop where
  sameExtent : g.SameExtent g'
  agree : ∀ v, Agree ρ (g.encodeUnit v) (g'.encodeUnit (r v))

/-- What the other group reads from a unit is what the one reads from it, in another form. -/
structure ReadsAlike (t : Value → Value) (g g' : Group) : Prop where
  sameExtent : g.SameExtent g'
  decodeUnit_eq : ∀ unit, g'.decodeUnit unit = (g.decodeUnit unit).map t

theorem StoresAlike.refl (hrefl : ∀ e, ρ e e) (g : Group) : g.StoresAlike ρ id g :=
  ⟨.refl g, fun v => .refl hrefl (g.encodeUnit v)⟩

theorem ReadsAlike.refl (g : Group) : g.ReadsAlike id g :=
  ⟨.refl g, fun unit => by rw [Option.map_id_fun, id]⟩

/-- The units of a group that the bytes cover have a value each. -/
theorem WellFormed.length_filterMap_cut (hg : g.WellFormed) {bs : Bytes}
    (h : g.byteLength ≤ bs.length) :
    ((cut g.unitLength g.valueCount bs).filterMap g.decodeUnit).length = g.valueCount := by
  have hwf : ∀ g' ∈ [g], g'.WellFormed := by simpa using hg
  have hlength : Layout.byteLength [g] ≤ bs.length := by simpa [Layout.byteLength] using h
  obtain ⟨ws, hws⟩ := Layout.exists_decodings_eq hwf hlength
  rw [Layout.decodings_cons, show Layout.decodings [] (bs.drop g.byteLength) = [] from rfl,
    List.append_nil] at hws
  have hlen : g.valueCount = ws.length := by simpa [length_cut] using congrArg List.length hws
  have hread : (cut g.unitLength g.valueCount bs).filterMap g.decodeUnit = ws := by
    simpa [List.filterMap_map] using congrArg (List.filterMap id) hws
  rw [hread, hlen]

end Group

namespace Layout
variable {layout layout' : Layout}

theorem valueCount_of_forall₂ (h : List.Forall₂ Group.SameExtent layout layout') :
    layout'.valueCount = layout.valueCount := by
  induction h with
  | nil => rfl
  | cons hg _ ih => rw [valueCount, valueCount, hg.valueCount_eq, ih]

theorem byteLength_of_forall₂ (h : List.Forall₂ Group.SameExtent layout layout') :
    layout'.byteLength = layout.byteLength := by
  induction h with
  | nil => rfl
  | cons hg _ ih => rw [byteLength, byteLength, hg.byteLength_eq, ih]

/-! ## Packing -/

section Packing
variable {ρ : Error → Error → Prop} {r : Value → Value}

theorem agree_packScan (h : List.Forall₂ (Group.StoresAlike ρ r) layout layout')
    (vs : List Value) :
    Agree ρ ((layout.packScan vs).map (·.1)) ((layout'.packScan (vs.map r)).map (·.1)) := by
  induction h generalizing vs with
  | nil => exact .ok []
  | @cons g g' layout layout' hg _ ih =>
    have hcount := hg.sameExtent.valueCount_eq
    have hlen : (vs.map r).length = vs.length := List.length_map r
    by_cases hcovered : g.valueCount ≤ vs.length
    · have hunits : Agree ρ (Except.all ((vs.take g.valueCount).map g.encodeUnit))
          (Except.all (((vs.map r).take g.valueCount).map g'.encodeUnit)) := by
        rw [← List.map_take, List.map_map, Except.all_map, Except.all_map]
        exact .mapM fun v _ => hg.agree v
      have hrest := ih (vs.drop g.valueCount)
      have hfront : ∀ (x : Except Error (Bytes × Option Shortage)) (front : Bytes),
          (x.map fun p => (front ++ p.1, p.2)).map (·.1) = (x.map (·.1)).map (front ++ ·) := by
        intro x front
        cases x <;> rfl
      rw [packScan_cons hcovered, packScan_cons (by rw [hcount, hlen]; exact hcovered), hcount,
        Except.map_bind, Except.map_bind]
      refine hunits.bind ?_
      intro units
      rw [hfront, hfront, hg.sameExtent.join_eq, ← List.map_drop]
      exact hrest.map _
    · have hlt := Nat.lt_of_not_le hcovered
      rw [packScan_of_lt hlt, packScan_of_lt (by rw [hcount, hlen]; exact hlt)]
      exact .ok []

/-- Layouts of groups that store alike pack alike. -/
theorem agree_pack_of_forall₂ (hrefl : ∀ e, ρ e e)
    (h : List.Forall₂ (Group.StoresAlike ρ r) layout layout') (mode : Mode) (vs : List Value) :
    Agree ρ (layout.pack mode vs) (layout'.pack mode (vs.map r)) := by
  have hcount := valueCount_of_forall₂ (h.imp fun _ _ hg => hg.sameExtent)
  have hlen : (vs.map r).length = vs.length := List.length_map r
  by_cases hlack : mode = .strict ∧ vs.length < layout.valueCount
  · rw [pack_of_lacking hlack, pack_of_lacking (by rw [hlen, hcount]; exact hlack), hlen, hcount]
    exact .error (hrefl _)
  · have hlack' : ¬ (mode = .strict ∧ (vs.map r).length < layout'.valueCount) := by
      rw [hlen, hcount]
      exact hlack
    rw [pack_eq_pack_loose hlack, pack_eq_pack_loose hlack', pack_loose, pack_loose]
    exact agree_packScan h vs

end Packing

/-! ## Unpacking -/

section Unpacking
variable {t : Group → Group → Value → Value}

/-- Values in the form in which the slots of another layout read them. -/
def reread (t : Group → Group → Value → Value) (layout layout' : Layout) (vs : List Value) :
    List Value :=
  List.zipWith (fun slots v => t slots.1 slots.2 v) (layout.slots.zip layout'.slots) vs

theorem reread_nil (t : Group → Group → Value → Value) (layout layout' : Layout) :
    layout.reread t layout' [] = [] := List.zipWith_nil_right

/-- The values of the first group are changed as the group is, and those behind it by the rest. -/
theorem reread_cons_append {g g' : Group} (h : g'.valueCount = g.valueCount)
    {first : List Value} (hfirst : first.length = g.valueCount) (rest : List Value) :
    reread t (g :: layout) (g' :: layout') (first ++ rest) =
      first.map (t g g') ++ layout.reread t layout' rest := by
  have hslots : (slots (g :: layout)).zip (slots (g' :: layout')) =
      List.replicate g.valueCount (g, g') ++ layout.slots.zip layout'.slots := by
    rw [slots_cons, slots_cons, h, List.zip_append (by simp), List.zip_replicate']
  have hgroup : ∀ vs : List Value, List.zipWith (fun slots v => t slots.1 slots.2 v)
      (List.replicate vs.length (g, g')) vs = vs.map (t g g') := by
    intro vs
    induction vs with
    | nil => rfl
    | cons v vs ih => simp [List.replicate_succ, ih]
  rw [reread, hslots, List.zipWith_append (by simp [hfirst]), ← hfirst, hgroup]
  rfl

section Reread
variable {vs : List Value} (hcount : layout'.valueCount = layout.valueCount)
  (hvs : vs.length ≤ layout.valueCount)
include hcount hvs

theorem length_reread : (layout.reread t layout' vs).length = vs.length := by
  rw [reread, List.length_zipWith, List.length_zip, length_slots, length_slots, hcount,
    Nat.min_self, Nat.min_eq_right hvs]

/-- Each value is changed as its slots ask for. -/
theorem getElem?_reread {j : ℕ} {v : Value} (hv : vs[j]? = some v) :
    ∃ g g', layout.slots[j]? = some g ∧ layout'.slots[j]? = some g' ∧
      (layout.reread t layout' vs)[j]? = some (t g g' v) := by
  obtain ⟨hj, -⟩ := List.getElem?_eq_some_iff.mp hv
  have hslot : ∀ layout'' : Layout, layout''.valueCount = layout.valueCount →
      ∃ g, layout''.slots[j]? = some g := by
    intro layout'' h
    exact ⟨_, List.getElem?_eq_getElem (by rw [length_slots, h]; exact hj.trans_le hvs)⟩
  obtain ⟨g, hg⟩ := hslot layout rfl
  obtain ⟨g', hg'⟩ := hslot layout' hcount
  have hpair : (layout.slots.zip layout'.slots)[j]? = some (g, g') :=
    List.getElem?_zip_eq_some.mpr ⟨hg, hg'⟩
  exact ⟨g, g', hg, hg', List.getElem?_zipWith_eq_some.mpr ⟨(g, g'), v, hpair, hv, rfl⟩⟩

theorem reread_id : layout.reread (fun _ _ => id) layout' vs = vs := by
  apply List.ext_getElem?
  intro j
  cases hv : vs[j]? with
  | none => rwa [List.getElem?_eq_none_iff, length_reread hcount hvs, ← List.getElem?_eq_none_iff]
  | some v =>
    obtain ⟨_, _, _, _, hsame⟩ := getElem?_reread (t := fun _ _ => id) hcount hvs hv
    exact hsame

end Reread

theorem unpackScan_of_forall₂ (hwf : ∀ g ∈ layout, g.WellFormed)
    (h : List.Forall₂ (fun g g' => g.ReadsAlike (t g g') g') layout layout') (bs : Bytes) :
    (layout'.unpackScan bs).1 = layout.reread t layout' (layout.unpackScan bs).1 := by
  induction h generalizing bs with
  | nil => rfl
  | @cons g g' layout layout' hg _ ih =>
    obtain ⟨hgroup, hgroups⟩ := List.forall_mem_cons.mp hwf
    have hlength := hg.sameExtent.byteLength_eq
    by_cases hcovered : g.byteLength ≤ bs.length
    · have hread : (Group.cut g.unitLength g.valueCount bs).filterMap g'.decodeUnit =
          ((Group.cut g.unitLength g.valueCount bs).filterMap g.decodeUnit).map (t g g') := by
        rw [List.map_filterMap]
        exact List.filterMap_congr fun unit _ => hg.decodeUnit_eq unit
      rw [unpackScan_cons hcovered, unpackScan_cons (by rw [hlength]; exact hcovered),
        hg.sameExtent.unitLength_eq, hg.sameExtent.valueCount_eq, hlength, hread, ih hgroups,
        reread_cons_append hg.sameExtent.valueCount_eq (hgroup.length_filterMap_cut hcovered)]
    · have hlt := Nat.lt_of_not_le hcovered
      rw [unpackScan_of_lt hlt, unpackScan_of_lt (by rw [hlength]; exact hlt), reread_nil]

/-- Layouts of groups that read alike unpack alike, with the same failures. -/
theorem unpack_of_forall₂ (hwf : ∀ g ∈ layout, g.WellFormed)
    (h : List.Forall₂ (fun g g' => g.ReadsAlike (t g g') g') layout layout') (mode : Mode)
    (bs : Bytes) :
    layout'.unpack mode bs = (layout.unpack mode bs).map (layout.reread t layout') := by
  have hloose : layout'.unpack .loose bs =
      (layout.unpack .loose bs).map (layout.reread t layout') := by
    rw [unpack_loose, unpack_loose, unpackScan_of_forall₂ hwf h, Except.map]
  cases mode with
  | loose => exact hloose
  | strict =>
    rw [unpack_strict_eq_ite, unpack_strict_eq_ite, hloose,
      byteLength_of_forall₂ (h.imp fun _ _ hg => hg.sameExtent)]
    split <;> rfl

end Unpacking

end Layout
end BinaryRecord
