import BinaryRecord.Proofs.Json.Item
import BinaryRecord.Proofs.Layout.Loose
import BinaryRecord.Proofs.Layout.Repack

/-!
# Unpacked values in JSON

Items are read each on its own under its slot, and the first that does not fit is named by
its place. What unpacking gives stands in the order of the slots, so its JSON form is read
back as the same values. The only values in the way are the numbers that are not finite.

## Main definitions

* `Layout.readings`: all items, each under its slot.
-/

namespace BinaryRecord

namespace Layout
variable {layout : Layout} {items : List Json} {vs : List Value} {bs : Bytes} {mode : Mode}

/-! ## Items under their slots -/

/-- The items read each on its own under its slot. -/
def readings (layout : Layout) (items : List Json) : List (Except ItemError Value) :=
  List.zipWith (fun g item => g.code.readItem item) layout.slots items

theorem map_readItem_zip_firstSlots (layout : Layout) (items : List Json) :
    ((layout.firstSlots items.length).zip items).map (fun p => p.1.code.readItem p.2) =
      layout.readings items := by
  rw [List.map_zip_eq_zipWith, firstSlots_eq_take, readings]
  conv_lhs => rw [← List.take_length (l := items)]
  rw [List.length_take, Nat.min_self, ← List.take_zipWith]
  exact List.take_of_length_le (by rw [List.length_zipWith]; exact Nat.min_le_right _ _)

theorem readSlots_eq_all (index : ℕ) (pairs : List (Group × Json)) :
    readSlots index pairs = Except.all ((pairs.map fun p => p.1.code.readItem p.2).mapIdx
      fun j r => r.mapError (Misfit.mk (index + j))) := by
  induction pairs generalizing index with
  | nil => rfl
  | cons p pairs ih =>
    obtain ⟨g, item⟩ := p
    have hshift : ∀ j, index + 1 + j = index + (j + 1) := by omega
    rw [readSlots, List.map_cons, List.mapIdx_cons, Except.all_cons, ih]
    simp only [hshift]
    cases g.code.readItem item <;> rfl

/-- Reading items gives their joint result, with the place of the first that does not fit. -/
theorem readItems_eq_all (layout : Layout) (items : List Json) :
    layout.readItems items =
      Except.all ((layout.readings items).mapIdx fun j r => r.mapError (Misfit.mk j)) := by
  rw [readItems, readSlots_eq_all, map_readItem_zip_firstSlots]
  simp only [Nat.zero_add]

/-- Items are read exactly if each is, under its slot. -/
theorem readItems_eq_ok_iff :
    layout.readItems items = .ok vs ↔ layout.readings items = vs.map .ok := by
  rw [readItems_eq_all, Except.all_eq_ok_iff, List.ext_getElem?_iff, List.ext_getElem?_iff]
  refine forall_congr' fun j => ?_
  simp only [List.getElem?_mapIdx, List.getElem?_map]
  cases (layout.readings items)[j]? <;> cases vs[j]? <;> simp [Except.mapError_eq_ok_iff]

/-- Reading fails with the first item that does not fit, and names its place. -/
theorem readItems_eq_error_iff {m : Misfit} :
    layout.readItems items = .error m ↔
      (layout.readings items)[m.index]? = some (.error m.cause) ∧
      ∀ i < m.index, ∃ v, (layout.readings items)[i]? = some (.ok v) := by
  obtain ⟨index, cause⟩ := m
  simp only [readItems_eq_all, Except.all_eq_error_iff, List.getElem?_mapIdx,
    Option.map_eq_some_iff, Except.mapError_eq_ok_iff, Except.mapError_eq_error_iff,
    Misfit.mk.injEq]
  constructor
  · rintro ⟨j, ⟨r, hr, e, rfl, rfl, rfl⟩, hbefore⟩
    refine ⟨hr, fun i hi => ?_⟩
    obtain ⟨v, r, hr, rfl⟩ := hbefore i hi
    exact ⟨v, hr⟩
  · rintro ⟨hrefused, hbefore⟩
    refine ⟨index, ⟨_, hrefused, cause, rfl, rfl, rfl⟩, fun i hi => ?_⟩
    obtain ⟨v, hv⟩ := hbefore i hi
    exact ⟨v, _, hv, rfl⟩

theorem getElem?_readings {j : ℕ} {g : Group} {item : Json} (hg : layout.slots[j]? = some g)
    (hitem : items[j]? = some item) :
    (layout.readings items)[j]? = some (g.code.readItem item) := by
  rw [readings, List.getElem?_zipWith, hg, hitem]

/-- Each value was read of the item at its place. -/
theorem exists_item_of_readItems (h : layout.readItems items = .ok vs) {j : ℕ} {v : Value}
    (hv : vs[j]? = some v) : ∃ g item, layout.slots[j]? = some g ∧ items[j]? = some item ∧
      g.code.readItem item = .ok v := by
  have hread : (layout.readings items)[j]? = some (.ok v) := by
    rw [readItems_eq_ok_iff.mp h, List.getElem?_map, hv, Option.map_some]
  exact List.getElem?_zipWith_eq_some.mp hread

/-! ## Unpacked values -/

theorem getElem?_slots_of_take {k j : ℕ} {g : Group}
    (h : (slots (layout.take k))[j]? = some g) : layout.slots[j]? = some g := by
  obtain ⟨hj, -⟩ := List.getElem?_eq_some_iff.mp h
  rw [← List.take_append_drop k layout, slots_append, List.getElem?_append_left hj, h]

/-- Each unpacked value has a slot of its class. -/
theorem exists_slot_of_unpack (hwf : layout.WellFormed) (h : layout.unpack mode bs = .ok vs)
    {j : ℕ} {v : Value} (hv : vs[j]? = some v) :
    ∃ g, layout.slots[j]? = some g ∧ g.code.kind.tag? = some v.tag := by
  obtain ⟨ws, hws, hread⟩ := exists_unpack_loose_eq hwf bs
  obtain rfl : ws = vs := Except.ok.inj (hws.symm.trans (unpack_loose_of_unpack h))
  have hj : (decodings (layout.take (layout.covered Group.byteLength bs.length)) bs)[j]? =
      some (some v) := by
    rw [hread, List.getElem?_map, hv, Option.map_some]
  obtain ⟨g, unit, hg, -, hdecode⟩ := List.getElem?_zipWith_eq_some.mp hj
  exact ⟨g, getElem?_slots_of_take hg, Code.tag?_kind_of_decode hdecode⟩

/-- The JSON form of each unpacked value is read for its slot, unless it is not finite. -/
theorem getElem?_readings_toJsonAs (hwf : layout.WellFormed) (text : Bool)
    (h : layout.unpack mode bs = .ok vs)
    (htext : text = true → ∀ data, .bytes data ∈ vs → Utf8.Valid data)
    {j : ℕ} {v : Value} (hv : vs[j]? = some v) :
    ∃ g, layout.slots[j]? = some g ∧
      (layout.readings (vs.map (·.toJsonAs text)))[j]? =
        some (if v.isFinite then .ok v else .error (.notNumber g.code .null)) := by
  obtain ⟨g, hg, htag⟩ := exists_slot_of_unpack hwf h hv
  refine ⟨g, hg, ?_⟩
  have hvalid : text = true → ∀ data, v = .bytes data → Utf8.Valid data := by
    rintro htrue data rfl
    exact htext htrue data (List.mem_of_getElem? hv)
  rw [readings, List.getElem?_zipWith, hg, List.getElem?_map, hv, Option.map_some,
    ← Code.readItem_toJsonAs text htag hvalid]

/-- The JSON forms of finite unpacked values are read as these values. -/
theorem readItems_toJsonAs (hwf : layout.WellFormed) (text : Bool)
    (h : layout.unpack mode bs = .ok vs)
    (htext : text = true → ∀ data, .bytes data ∈ vs → Utf8.Valid data)
    (hfinite : ∀ v ∈ vs, v.isFinite = true) :
    layout.readItems (vs.map (·.toJsonAs text)) = .ok vs := by
  apply readItems_eq_ok_iff.mpr
  apply List.ext_getElem?
  intro j
  cases hv : vs[j]? with
  | none => simp [readings, List.getElem?_zipWith, hv]
  | some v =>
    obtain ⟨g, -, hread⟩ := getElem?_readings_toJsonAs hwf text h htext hv
    rw [hread, hfinite v (List.mem_of_getElem? hv), if_pos rfl, List.getElem?_map, hv,
      Option.map_some]

/-- The JSON forms of unpacked values that are not all finite are refused at the first that
is not. -/
theorem readItems_toJsonAs_of_not_isFinite (hwf : layout.WellFormed) (text : Bool)
    (h : layout.unpack mode bs = .ok vs)
    (htext : text = true → ∀ data, .bytes data ∈ vs → Utf8.Valid data)
    (hinfinite : ∃ v ∈ vs, v.isFinite = false) :
    ∃ j g v, vs[j]? = some v ∧ v.isFinite = false ∧
      (∀ i < j, ∀ w, vs[i]? = some w → w.isFinite = true) ∧ layout.slots[j]? = some g ∧
      layout.readItems (vs.map (·.toJsonAs text)) = .error ⟨j, .notNumber g.code .null⟩ := by
  have hread := @getElem?_readings_toJsonAs layout vs bs mode hwf text h htext
  cases hresult : layout.readItems (vs.map (·.toJsonAs text)) with
  | ok ws =>
    obtain ⟨v, hmem, hv⟩ := hinfinite
    obtain ⟨j, hj⟩ := List.getElem?_of_mem hmem
    obtain ⟨g, -, hrefused⟩ := hread hj
    rw [readItems_eq_ok_iff.mp hresult, hv, List.getElem?_map] at hrefused
    obtain ⟨w, -, hw⟩ := Option.map_eq_some_iff.mp hrefused
    cases hw
  | error m =>
    -- Of all readings only that of a value that is not finite fails, so this is the first one.
    obtain ⟨hm, hbefore⟩ := readItems_eq_error_iff.mp hresult
    obtain ⟨index, cause⟩ := m
    cases hv : vs[index]? with
    | none => simp [readings, List.getElem?_zipWith, hv] at hm
    | some v =>
      obtain ⟨g, hg, hv'⟩ := hread hv
      rw [hm] at hv'
      cases hfinite : v.isFinite with
      | true => simp [hfinite] at hv'
      | false =>
        refine ⟨index, g, v, hv, hfinite, ?_, hg, ?_⟩
        · intro i hi w hw
          obtain ⟨a, ha⟩ := hbefore i hi
          obtain ⟨g', -, hw'⟩ := hread hw
          rw [ha] at hw'
          by_contra hnot
          simp [hnot] at hw'
        · simp [hfinite] at hv'
          rw [hv']

end Layout

namespace Format

/-- Unpacked values survive their JSON form. It is read for the slots of the same format as
the same values if all of them are finite, and otherwise refused at the first that is not.
This holds for byte strings as arrays, and for those that are UTF-8 also as text. -/
theorem readItems_toJsonAs_of_unpack (f : Format) (text : Bool) {mode : Mode} {bs : Bytes}
    {vs : List Value} (h : f.layout.unpack mode bs = .ok vs)
    (htext : text = true → ∀ data, .bytes data ∈ vs → Utf8.Valid data) :
    ((∀ v ∈ vs, v.isFinite = true) →
      f.layout.readItems (vs.map (·.toJsonAs text)) = .ok vs) ∧
    ((∃ v ∈ vs, v.isFinite = false) →
      ∃ j g v, vs[j]? = some v ∧ v.isFinite = false ∧
        (∀ i < j, ∀ w, vs[i]? = some w → w.isFinite = true) ∧ f.layout.slots[j]? = some g ∧
        f.layout.readItems (vs.map (·.toJsonAs text)) =
          .error ⟨j, .notNumber g.code .null⟩) :=
  ⟨Layout.readItems_toJsonAs f.wellFormed text h htext,
    Layout.readItems_toJsonAs_of_not_isFinite f.wellFormed text h htext⟩

/-- A negative zero, integers of both classes and a text come back; bytes for the last group
are lacking. -/
theorem readItems_toJsonAs_of_unpack_text :
    ∃ (f : Format) (vs : List Value), f.text = ">bBxd2sq" ∧
      vs = [.int (-1), .uint 255, .float ⟨0x8000000000000000⟩, .bytes [195, 169]] ∧
      f.layout.unpack .loose [255, 255, 7, 128, 0, 0, 0, 0, 0, 0, 0, 195, 169, 1] = .ok vs ∧
      f.layout.readItems (vs.map (·.toJsonAs true)) = .ok vs := by
  have hparse : Layout.parse ">bBxd2sq" = .ok
      [⟨1, .int8, .big, 1⟩, ⟨1, .uint8, .big, 1⟩, ⟨1, .pad, .big, 1⟩, ⟨1, .float64, .big, 8⟩,
        ⟨2, .fixedString, .big, 1⟩, ⟨1, .int64, .big, 8⟩] := by decide
  have hunpack : Layout.unpack
      [⟨1, .int8, .big, 1⟩, ⟨1, .uint8, .big, 1⟩, ⟨1, .pad, .big, 1⟩, ⟨1, .float64, .big, 8⟩,
        ⟨2, .fixedString, .big, 1⟩, ⟨1, .int64, .big, 8⟩]
      .loose [255, 255, 7, 128, 0, 0, 0, 0, 0, 0, 0, 195, 169, 1] =
        .ok [.int (-1), .uint 255, .float ⟨0x8000000000000000⟩, .bytes [195, 169]] := by decide
  have htext : ∀ data, .bytes data ∈ [Value.int (-1), .uint 255, .float ⟨0x8000000000000000⟩,
      .bytes [195, 169]] → Utf8.Valid data := by
    intro data hdata
    obtain rfl : data = [195, 169] := by simpa using hdata
    exact ⟨"é", by decide⟩
  obtain ⟨hback, -⟩ :=
    readItems_toJsonAs_of_unpack ⟨">bBxd2sq", _, hparse⟩ true hunpack fun _ => htext
  exact ⟨⟨">bBxd2sq", _, hparse⟩, _, rfl, rfl, hunpack, hback (by decide)⟩

end Format
end BinaryRecord
