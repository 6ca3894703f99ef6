import Mathlib.Data.Set.List
import BinaryRecord.Layout.Pack
import BinaryRecord.Layout.Unpack
import BinaryRecord.Proofs.Layout.Units

/-!
# What the scans do

A scan of values is the joint result of storing each value on its own, laid out in
order; a scan of bytes gives what each unit is read as on its own. Both are told for a
layout with further groups behind it, so a scan that stops somewhere is told from the
groups before that place.
-/

namespace BinaryRecord.Layout
variable {g : Group} {layout : Layout} {vs : List Value} {bs : Bytes}

/-! ## Scans of values -/

theorem encodings_nil (vs : List Value) : encodings [] vs = [] := rfl

theorem encodings_cons (h : g.valueCount ≤ vs.length) :
    encodings (g :: layout) vs =
      (vs.take g.valueCount).map g.encodeUnit ++ layout.encodings (vs.drop g.valueCount) :=
  zipWith_slots_cons Group.encodeUnit h

/-- A scan of values ends at a group that they do not cover. -/
theorem packScan_of_lt (h : vs.length < g.valueCount) :
    packScan (g :: layout) vs = .ok ([], some ⟨g.code, vs.length, g.valueCount⟩) := by
  rw [packScan, Group.isPad_of_valueCount_ne_zero (Nat.ne_zero_of_lt h),
    if_neg Bool.false_ne_true, if_pos h]

/-- A group that the values cover adds its units, and the scan goes on behind them. -/
theorem packScan_cons (h : g.valueCount ≤ vs.length) :
    packScan (g :: layout) vs =
      Except.all ((vs.take g.valueCount).map g.encodeUnit) >>= fun units =>
        (layout.packScan (vs.drop g.valueCount)).map fun p => (g.join units ++ p.1, p.2) := by
  rw [packScan]
  cases hpad : g.code.isPad with
  | true =>
    rw [if_pos rfl, Group.valueCount_of_isPad hpad, List.take_zero, List.drop_zero, List.map_nil,
      Except.all_nil]
    simp only [Group.join_of_isPad hpad]
    cases layout.packScan vs <;> rfl
  | false =>
    rw [if_neg Bool.false_ne_true, if_neg (by omega), Group.encode_eq_all]
    simp only [Group.join_of_not_isPad hpad]
    cases Except.all ((vs.take g.valueCount).map g.encodeUnit) with
    | error e => rfl
    | ok units => cases layout.packScan (vs.drop g.valueCount) <;> rfl

/-- Groups that the values cover come out before whatever the groups behind them give. -/
theorem packScan_append (h : layout.valueCount ≤ vs.length) (layout' : Layout) :
    packScan (layout ++ layout') vs =
      Except.all (layout.encodings vs) >>= fun units =>
        (packScan layout' (vs.drop layout.valueCount)).map fun p =>
          (layout.assemble units ++ p.1, p.2) := by
  induction layout generalizing vs with
  | nil =>
    rw [encodings_nil, Except.all_nil, valueCount, List.drop_zero, List.nil_append]
    cases packScan layout' vs <;> simp [bind, Except.bind, Except.map, assemble]
  | cons g layout ih =>
    rw [valueCount] at h
    have hg : g.valueCount ≤ vs.length := by omega
    have hrest : valueCount layout ≤ (vs.drop g.valueCount).length := by
      rw [List.length_drop]
      omega
    rw [List.cons_append, packScan_cons hg, ih hrest, encodings_cons hg, Except.all_append,
      List.drop_drop, valueCount]
    cases hfirst : Except.all ((vs.take g.valueCount).map g.encodeUnit) with
    | error e => rfl
    | ok first =>
      have hlen : first.length = g.valueCount := by
        have := congrArg List.length (Except.all_eq_ok_iff.mp hfirst)
        simpa [hg] using this.symm
      cases Except.all (encodings layout (vs.drop g.valueCount)) with
      | error e => rfl
      | ok rest =>
        cases packScan layout' (vs.drop (g.valueCount + valueCount layout)) <;>
          simp [bind, Except.bind, Except.map, assemble_cons_append hlen]

/-- Values for all slots are stored each on its own and laid out in order. -/
theorem packScan_of_le (h : layout.valueCount ≤ vs.length) :
    layout.packScan vs =
      (Except.all (layout.encodings vs)).map fun units => (layout.assemble units, none) := by
  have happend := packScan_append h []
  rw [List.append_nil] at happend
  rw [happend]
  cases Except.all (layout.encodings vs) <;> simp [bind, Except.bind, Except.map, packScan]

/-- Without values only the pads at the front come out. -/
theorem packScan_nil_values (hwf : ∀ g ∈ layout, g.WellFormed) :
    (layout.packScan []).map (·.1) = .ok (fill (byteLength (layout.takeWhile (·.code.isPad)))) := by
  induction layout with
  | nil => rfl
  | cons g layout ih =>
    obtain ⟨hg, hrest⟩ := List.forall_mem_cons.mp hwf
    cases hpad : g.code.isPad with
    | true =>
      obtain ⟨p, hscan, hp⟩ := Except.map_eq_ok_iff.mp (ih hrest)
      have hzero := Group.valueCount_of_isPad hpad
      rw [packScan_cons (by simp [hzero]), hzero]
      simp [bind, Except.bind, Except.map, hscan, hp, Group.join_of_isPad hpad, hpad, byteLength,
        fill]
    | false =>
      have hpos := hg.valueCount_pos hpad
      simp [packScan, hpad, hpos, Except.map, byteLength, fill]

/-! ## Scans of bytes -/

theorem decodings_cons (g : Group) (layout : Layout) (bs : Bytes) :
    decodings (g :: layout) bs =
      (Group.cut g.unitLength g.valueCount bs).map g.decodeUnit ++
        layout.decodings (bs.drop g.byteLength) := by
  have hcut := Group.length_cut g.unitLength g.valueCount bs
  rw [decodings, dissect, zipWith_slots_cons _ (by simp [hcut]), List.take_left' hcut,
    List.drop_left' hcut]
  rfl

/-- A scan of bytes ends at a group that they do not cover. -/
theorem unpackScan_of_lt (h : bs.length < g.byteLength) :
    unpackScan (g :: layout) bs = ([], some ⟨g.code, bs.length, g.byteLength⟩) := if_pos h

/-- A group that the bytes cover adds its values, and the scan goes on behind it. -/
theorem unpackScan_cons (h : g.byteLength ≤ bs.length) :
    unpackScan (g :: layout) bs =
      ((Group.cut g.unitLength g.valueCount bs).filterMap g.decodeUnit ++
        (layout.unpackScan (bs.drop g.byteLength)).1,
      (layout.unpackScan (bs.drop g.byteLength)).2) := by
  rw [unpackScan, if_neg (by omega), Group.decode_take_eq_filterMap]

/-- Groups that the bytes cover give their values before whatever the groups behind
them give. -/
theorem unpackScan_append (h : layout.byteLength ≤ bs.length) (layout' : Layout) :
    unpackScan (layout ++ layout') bs =
      ((layout.decodings bs).filterMap id ++
        (unpackScan layout' (bs.drop layout.byteLength)).1,
      (unpackScan layout' (bs.drop layout.byteLength)).2) := by
  induction layout generalizing bs with
  | nil => rw [byteLength]; rfl
  | cons g layout ih =>
    obtain ⟨hg, hrest⟩ := byteLength_cons_le h
    rw [List.cons_append, unpackScan_cons hg, ih hrest, decodings_cons, List.drop_drop,
      byteLength]
    simp [List.filterMap_map]

theorem isSome_of_mem_decodings (hwf : ∀ g ∈ layout, g.WellFormed)
    (h : layout.byteLength ≤ bs.length) : ∀ v? ∈ layout.decodings bs, v?.isSome := by
  induction layout generalizing bs with
  | nil => simp [decodings]
  | cons g layout ih =>
    obtain ⟨hg, hgroups⟩ := List.forall_mem_cons.mp hwf
    obtain ⟨hlen, hrest⟩ := byteLength_cons_le h
    have hunits := Nat.le_trans g.valueCount_mul_unitLength_le hlen
    intro v? hv
    rw [decodings_cons, List.mem_append, List.mem_map] at hv
    rcases hv with ⟨unit, hunit, rfl⟩ | hv
    · cases hpad : g.code.isPad with
      | true => simp [Group.valueCount_of_isPad hpad, Group.cut] at hunit
      | false => exact hg.isSome_decodeUnit hpad (Group.length_of_mem_cut hunits hunit)
    · exact ih hgroups hrest v? hv

/-- Every unit that the bytes cover is read as a value. -/
theorem exists_decodings_eq (hwf : ∀ g ∈ layout, g.WellFormed)
    (h : layout.byteLength ≤ bs.length) : ∃ vs : List Value, layout.decodings bs = vs.map some := by
  have hrange : layout.decodings bs ∈ Set.range (List.map some) := by
    rw [Set.range_list_map]
    intro v? hv
    exact (Option.isSome_iff_exists.mp (isSome_of_mem_decodings hwf h v? hv)).imp fun _ => Eq.symm
  obtain ⟨vs, hvs⟩ := hrange
  exact ⟨vs, hvs.symm⟩

theorem isSome_unpackScan_iff :
    (layout.unpackScan bs).2.isSome ↔ bs.length < layout.byteLength := by
  induction layout generalizing bs with
  | nil => simp [unpackScan, byteLength]
  | cons g layout ih =>
    by_cases h : bs.length < g.byteLength
    · simp only [unpackScan, h, if_true, Option.isSome_some, true_iff, byteLength]
      omega
    · rw [unpackScan_cons (by omega), ih, List.length_drop, byteLength]
      omega

/-! ## Packing and unpacking -/

theorem pack_loose (layout : Layout) (vs : List Value) :
    layout.pack .loose vs = (layout.packScan vs).map (·.1) := by
  simp [pack, packReporting, Mode.isStrict]

theorem unpack_loose (layout : Layout) (bs : Bytes) :
    layout.unpack .loose bs = .ok (layout.unpackScan bs).1 := by
  simp [unpack, unpackReporting, Mode.isStrict, Except.map]

/-- With values for all slots the modes agree. -/
theorem pack_strict_eq_pack_loose (h : layout.valueCount ≤ vs.length) :
    layout.pack .strict vs = layout.pack .loose vs := by
  have hnot : ¬ vs.length < layout.valueCount := by omega
  simp [pack, packReporting, Mode.isStrict, hnot]

theorem pack_strict_of_lt (h : vs.length < layout.valueCount) :
    layout.pack .strict vs = .error (.tooFewValues layout.valueCount vs.length) := by
  simp [pack, packReporting, Mode.isStrict, h, Except.map]

theorem pack_strict_of_le (h : layout.valueCount ≤ vs.length) :
    layout.pack .strict vs = (Except.all (layout.encodings vs)).map layout.assemble := by
  rw [pack_strict_eq_pack_loose h, pack_loose, packScan_of_le h]
  cases Except.all (layout.encodings vs) <;> rfl

theorem pack_strict_eq_ok_iff {packed : Bytes} :
    layout.pack .strict vs = .ok packed ↔ layout.valueCount ≤ vs.length ∧
      ∃ units : List Bytes,
        layout.encodings vs = units.map .ok ∧ layout.assemble units = packed := by
  by_cases h : layout.valueCount ≤ vs.length
  · simp [pack_strict_of_le h, Except.map_eq_ok_iff, Except.all_eq_ok_iff, h]
  · simp [pack_strict_of_lt (Nat.lt_of_not_le h), h]

/-- Bytes for the whole layout are read unit by unit. -/
theorem unpackScan_of_le (h : layout.byteLength ≤ bs.length) :
    layout.unpackScan bs = ((layout.decodings bs).filterMap id, none) := by
  have happend := unpackScan_append h []
  rw [List.append_nil] at happend
  rw [happend]
  simp [unpackScan]

theorem unpack_strict_of_le (h : layout.byteLength ≤ bs.length) {ws : List Value}
    (hws : layout.decodings bs = ws.map some) : layout.unpack .strict bs = .ok ws := by
  simp [unpack, unpackReporting, Mode.isStrict, unpackScan_of_le h, hws, Except.map]

/-! ## One slot -/

theorem getElem?_encodings {j : ℕ} {v : Value} (hg : layout.slots[j]? = some g)
    (hv : vs[j]? = some v) : (layout.encodings vs)[j]? = some (g.encodeUnit v) := by
  rw [encodings, List.getElem?_zipWith, hg, hv]

/-- If all values are stored, each has its unit. -/
theorem exists_unit_of_encodings {units : List Bytes} (hunits : layout.encodings vs = units.map .ok)
    {j : ℕ} {v : Value} (hg : layout.slots[j]? = some g) (hv : vs[j]? = some v) :
    ∃ unit, units[j]? = some unit ∧ g.encodeUnit v = .ok unit := by
  have hencode := getElem?_encodings hg hv
  rw [hunits, List.getElem?_map, Option.map_eq_some_iff] at hencode
  obtain ⟨unit, hunit, hstored⟩ := hencode
  exact ⟨unit, hunit, hstored.symm⟩

theorem getElem?_decodings {j : ℕ} {unit : Bytes} (hg : layout.slots[j]? = some g)
    (hunit : (layout.dissect bs)[j]? = some unit) :
    (layout.decodings bs)[j]? = some (g.decodeUnit unit) := by
  rw [decodings, List.getElem?_zipWith, hg, hunit]

/-- Values behind the last slot make no difference. -/
theorem encodings_take (layout : Layout) (vs : List Value) :
    layout.encodings (vs.take layout.valueCount) = layout.encodings vs :=
  zipWith_slots_take Group.encodeUnit layout vs

theorem length_encodings (h : layout.valueCount ≤ vs.length) :
    (layout.encodings vs).length = layout.valueCount := by
  rw [encodings, List.length_zipWith, length_slots, Nat.min_eq_left h]

theorem length_decodings (h : layout.byteLength ≤ bs.length) :
    (layout.decodings bs).length = layout.valueCount := by
  have hfits := congrArg List.length (fits_dissect h)
  rw [List.length_map, List.length_map] at hfits
  rw [decodings, List.length_zipWith, ← hfits, Nat.min_self, length_slots]

theorem length_of_decodings_eq (h : layout.byteLength ≤ bs.length) {ws : List Value}
    (hws : layout.decodings bs = ws.map some) : ws.length = layout.valueCount := by
  rw [← length_decodings h, hws, List.length_map]

/-- If all values are stored, each slot has its value and its unit. -/
theorem exists_stored_of_encodings (h : layout.valueCount ≤ vs.length) {units : List Bytes}
    (hunits : layout.encodings vs = units.map .ok) {j : ℕ} (hg : layout.slots[j]? = some g) :
    ∃ v unit, units[j]? = some unit ∧ g.encodeUnit v = .ok unit := by
  obtain ⟨hj, -⟩ := List.getElem?_eq_some_iff.mp hg
  rw [length_slots] at hj
  have hv := List.getElem?_eq_getElem (by omega : j < vs.length)
  exact ⟨_, exists_unit_of_encodings hunits hg hv⟩

/-- If all values are stored, there is no unit where there is no slot. -/
theorem getElem?_eq_none_of_encodings (h : layout.valueCount ≤ vs.length) {units : List Bytes}
    (hunits : layout.encodings vs = units.map .ok) {j : ℕ} (hg : layout.slots[j]? = none) :
    units[j]? = none := by
  have hcount := length_encodings h
  rw [hunits, List.length_map] at hcount
  rw [List.getElem?_eq_none_iff, hcount, ← length_slots]
  exact List.getElem?_eq_none_iff.mp hg

/-- What values are stored as has the lengths that the slots ask for. -/
theorem fits_of_encodings (hwf : layout.WellFormed) (h : layout.valueCount ≤ vs.length)
    {units : List Bytes} (hunits : layout.encodings vs = units.map .ok) : layout.Fits units := by
  apply List.ext_getElem?
  intro j
  rw [List.getElem?_map, List.getElem?_map]
  cases hg : layout.slots[j]? with
  | none => rw [getElem?_eq_none_of_encodings h hunits hg, Option.map_none, Option.map_none]
  | some g =>
    obtain ⟨hmem, hpad⟩ := isPad_of_mem_slots (List.mem_of_getElem? hg)
    obtain ⟨v, unit, hunit, hstored⟩ := exists_stored_of_encodings h hunits hg
    rw [hunit, Option.map_some, Option.map_some,
      (hwf.groups g hmem).length_encodeUnit hpad hstored]

theorem length_of_pack_strict (hwf : layout.WellFormed) {packed : Bytes}
    (h : layout.pack .strict vs = .ok packed) : packed.length = layout.byteLength := by
  obtain ⟨hlen, units, hunits, rfl⟩ := pack_strict_eq_ok_iff.mp h
  exact length_assemble (fits_of_encodings hwf hlen hunits)

end BinaryRecord.Layout
