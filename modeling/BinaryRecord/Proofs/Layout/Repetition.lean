import Mathlib.Data.List.Forall2
import BinaryRecord.Proofs.Format.Bounds
import BinaryRecord.Proofs.Layout.Loose

/-!
# Repeat counts

A repeat count stands for repetition. A layout whose repeated groups are written out, any of them,
one group for each unit, has the same slots and covers the same bytes, and in strict operation
nothing tells the two apart. In loose operation a repeated group is taken as a whole or not at all,
while single groups are taken one by one. So the results differ only where values or bytes run out
within a repeated group, and then by the units that are still covered there.

## Main definitions

* `Layout.Expands`: some repeated groups of a layout are written out.
* `Layout.SameUnits`: two layouts lay out the same units in the same places.
* `Layout.EndsWithin`: an amount runs out within a repeated group.
-/

namespace BinaryRecord

namespace Group
variable {g g' : Group}

/-- One unit of the group, as a group. -/
def single (g : Group) : Group := { g with count := 1 }

/-- The groups store their units alike. Their counts may differ unless they are the length of a
string. -/
structure SameUnit (g g' : Group) : Prop where
  code_eq : g'.code = g.code
  order_eq : g'.order = g.order
  size_eq : g'.size = g.size
  count_eq : g.code.isString = true → g'.count = g.count

theorem SameUnit.refl (g : Group) : g.SameUnit g := ⟨rfl, rfl, rfl, fun _ => rfl⟩

theorem sameUnit_single (h : g.code.isString = false) : g.SameUnit g.single :=
  ⟨rfl, rfl, rfl, by simp [h]⟩

theorem SameUnit.unitLength_eq (h : g.SameUnit g') : g'.unitLength = g.unitLength := by
  rw [unitLength, unitLength, h.code_eq, h.size_eq]
  by_cases hstring : g.code.isString = true
  · rw [if_pos hstring, if_pos hstring, byteLength, byteLength, h.count_eq hstring, h.size_eq]
  · rw [if_neg hstring, if_neg hstring]

theorem SameUnit.encodeUnit_eq (h : g.SameUnit g') : g'.encodeUnit = g.encodeUnit := by
  funext v
  rw [encodeUnit, encodeUnit, h.unitLength_eq, h.code_eq, h.order_eq]

/-! ## One unit of a group -/

section Single
variable (hstring : g.code.isString = false)
include hstring

theorem unitLength_of_not_isString : g.unitLength = g.size := by
  rw [unitLength, hstring, if_neg Bool.false_ne_true]

theorem units_of_not_isString : g.units = g.count := by
  rw [units, hstring, if_neg Bool.false_ne_true]

end Single

theorem valueCount_le_count (g : Group) (hstring : g.code.isString = false) :
    g.valueCount ≤ g.count := by
  rw [valueCount, units_of_not_isString hstring]
  split <;> omega

@[simp] theorem byteLength_single (g : Group) : g.single.byteLength = g.size := Nat.one_mul _

theorem WellFormed.single (h : g.WellFormed) : g.single.WellFormed :=
  ⟨Nat.le_refl 1, h.one_le_count.trans h.count_le, h.size_eq⟩

theorem WellFormed.size_pos (h : g.WellFormed) : 0 < g.size := by
  rw [h.size_eq]
  exact g.code.one_le_width

/-- An amount of bytes that is less than the group holds fewer units. -/
theorem WellFormed.div_size_lt (h : g.WellFormed) {n : ℕ} (hlt : n < g.byteLength) :
    n / g.size < g.count := (Nat.div_lt_iff_lt_mul h.size_pos).mpr hlt

theorem valueCount_single (g : Group) : g.single.valueCount = if g.code.isPad then 0 else 1 := by
  cases hstring : g.code.isString <;> simp [valueCount, units, single, hstring]

/-- A group of values has as many as there are single groups of it. -/
theorem count_mul_valueCount_single (hstring : g.code.isString = false) :
    g.count * g.single.valueCount = g.valueCount := by
  rw [valueCount_single, valueCount, units_of_not_isString hstring]
  split <;> simp

end Group

namespace Layout
variable {g : Group} {layout layout' : Layout} {vs : List Value} {bs : Bytes}

/-! ## Runs of single groups -/

theorem slots_replicate (n : ℕ) (g : Group) :
    slots (List.replicate n g) = List.replicate (n * g.valueCount) g := by
  induction n with
  | zero => simp
  | succ n ih =>
    rw [List.replicate_succ, slots_cons, ih, Nat.succ_mul, Nat.add_comm, List.replicate_add]

theorem byteLength_replicate (n : ℕ) (g : Group) :
    byteLength (List.replicate n g) = n * g.byteLength := by
  induction n with
  | zero => simp [byteLength]
  | succ n ih => rw [List.replicate_succ, byteLength, ih, Nat.succ_mul, Nat.add_comm]

theorem valueCount_replicate (n : ℕ) (g : Group) :
    valueCount (List.replicate n g) = n * g.valueCount := by
  rw [← length_slots, slots_replicate, List.length_replicate]

theorem assemble_append (layout layout' : Layout) (units : List Bytes) :
    assemble (layout ++ layout') units =
      layout.assemble (units.take layout.valueCount) ++
        layout'.assemble (units.drop layout.valueCount) := by
  induction layout generalizing units with
  | nil => simp [assemble, valueCount]
  | cons g layout ih =>
    rw [List.cons_append, assemble, ih, assemble, valueCount]
    simp [List.take_take, List.drop_take]

/-- Single groups lay out their units as one group of as many does. -/
theorem assemble_replicate (n : ℕ) (g : Group) (units : List Bytes) :
    assemble (List.replicate n g.single) units =
      Group.join { g with count := n } (units.take (n * g.single.valueCount)) := by
  induction n generalizing units with
  | zero => simp [assemble, Group.join, Group.byteLength, fill]
  | succ n ih =>
    rw [List.replicate_succ, assemble, ih, Group.valueCount_single]
    cases hpad : g.code.isPad with
    | true =>
      have hfill : fill (1 * g.size) ++ fill (n * g.size) = fill ((n + 1) * g.size) := by
        rw [fill, fill, List.replicate_append_replicate, Nat.one_mul, Nat.succ_mul, Nat.add_comm]
        rfl
      simpa [Group.join, Group.single, Group.byteLength, hpad] using hfill
    | false =>
      simp [Group.join, Group.single, hpad, List.take_add, Nat.add_comm n 1]

theorem decodings_append (layout layout' : Layout) (bs : Bytes) :
    decodings (layout ++ layout') bs =
      layout.decodings bs ++ layout'.decodings (bs.drop layout.byteLength) := by
  induction layout generalizing bs with
  | nil => simp [decodings, byteLength]
  | cons g layout ih =>
    rw [List.cons_append, decodings_cons, ih, decodings_cons, List.append_assoc, List.drop_drop,
      byteLength]

/-- Single groups are read as one group of as many units is. -/
theorem decodings_replicate (hstring : g.code.isString = false) (n : ℕ) (bs : Bytes) :
    decodings (List.replicate n g.single) bs =
      (Group.cut g.unitLength (n * g.single.valueCount) bs).map g.decodeUnit := by
  have hunit : g.single.unitLength = g.unitLength := (Group.sameUnit_single hstring).unitLength_eq
  have hlength : g.unitLength = g.size := Group.unitLength_of_not_isString hstring
  have hdecode : g.single.decodeUnit = g.decodeUnit := rfl
  induction n generalizing bs with
  | zero => simp [decodings, Group.cut]
  | succ n ih =>
    rw [List.replicate_succ, decodings_cons, ih, Group.valueCount_single, hunit, hdecode]
    cases hpad : g.code.isPad with
    | true => simp [Group.cut]
    | false => simp [Group.cut, hlength]

/-! ## The same units -/

/-- The layouts lay out the same units in the same places. -/
structure SameUnits (layout layout' : Layout) : Prop where
  slots : List.Forall₂ Group.SameUnit layout.slots layout'.slots
  byteLength_eq : layout'.byteLength = layout.byteLength
  assemble_eq : ∀ units, layout'.assemble units = layout.assemble units
  decodings_eq : ∀ bs, layout'.decodings bs = layout.decodings bs

namespace SameUnits
variable {rest rest' : Layout}

theorem refl (layout : Layout) : layout.SameUnits layout :=
  ⟨List.forall₂_same.mpr fun g _ => .refl g, rfl, fun _ => rfl, fun _ => rfl⟩

theorem valueCount_eq (h : layout.SameUnits layout') : layout'.valueCount = layout.valueCount := by
  rw [← length_slots, ← length_slots, h.slots.length_eq]

theorem append (h : layout.SameUnits layout') (hrest : rest.SameUnits rest') :
    SameUnits (layout ++ rest) (layout' ++ rest') := by
  constructor
  · rw [slots_append, slots_append]
    exact List.rel_append h.slots hrest.slots
  · rw [byteLength_append, byteLength_append, h.byteLength_eq, hrest.byteLength_eq]
  · intro units
    rw [assemble_append, assemble_append, h.valueCount_eq, h.assemble_eq, hrest.assemble_eq]
  · intro bs
    rw [decodings_append, decodings_append, h.byteLength_eq, h.decodings_eq, hrest.decodings_eq]

theorem encodings_eq (h : layout.SameUnits layout') (vs : List Value) :
    layout'.encodings vs = layout.encodings vs := by
  have hstore : layout.slots.map Group.encodeUnit = layout'.slots.map Group.encodeUnit := by
    rw [← List.forall₂_eq_eq_eq, List.forall₂_map_left_iff, List.forall₂_map_right_iff]
    exact h.slots.imp fun g g' hg => hg.encodeUnit_eq.symm
  have hzip := congrArg (fun fs => List.zipWith (fun (f : Value → _) v => f v) fs vs) hstore
  simp only [List.zipWith_map_left] at hzip
  exact hzip.symm

theorem pack_strict_eq (h : layout.SameUnits layout') (vs : List Value) :
    layout'.pack .strict vs = layout.pack .strict vs := by
  by_cases hlen : layout.valueCount ≤ vs.length
  · rw [pack_strict_of_le hlen, pack_strict_of_le (h.valueCount_eq.trans_le hlen), h.encodings_eq]
    exact congrArg (Except.map · _) (funext h.assemble_eq)
  · have hlt := Nat.not_le.mp hlen
    rw [pack_strict_of_lt hlt, pack_strict_of_lt (h.valueCount_eq.trans_gt hlt), h.valueCount_eq]

theorem unpack_strict_eq (h : layout.SameUnits layout') (bs : Bytes) :
    layout'.unpack .strict bs = layout.unpack .strict bs := by
  rw [unpack_strict_eq_ite, unpack_strict_eq_ite, h.byteLength_eq]
  by_cases hlen : layout.byteLength ≤ bs.length
  · rw [if_pos hlen, if_pos hlen, unpack_loose, unpack_loose, unpackScan_of_le hlen,
      unpackScan_of_le (h.byteLength_eq.trans_le hlen), h.decodings_eq]
  · rw [if_neg hlen, if_neg hlen]

end SameUnits

/-- A group that is no string lays out the units of as many single groups. -/
theorem sameUnits_replicate (hstring : g.code.isString = false) :
    SameUnits [g] (List.replicate g.count g.single) := by
  have hcount := Group.count_mul_valueCount_single hstring
  constructor
  · rw [slots_replicate, hcount]
    simp only [slots_cons, slots_nil, List.append_nil]
    induction g.valueCount with
    | zero => exact .nil
    | succ n ih => exact .cons (Group.sameUnit_single hstring) ih
  · rw [byteLength_replicate, Group.byteLength_single, byteLength, byteLength]
    rfl
  · intro units
    rw [assemble_replicate, hcount, assemble, assemble, List.append_nil]
  · intro bs
    rw [decodings_replicate hstring, hcount, decodings_cons]
    simp [decodings]

/-- Some repeated groups of a layout are written out, one group for each unit. -/
inductive Expands : Layout → Layout → Prop where
  | nil : Expands [] []
  /-- A group stays as it is. -/
  | keep (g : Group) {layout layout' : Layout} (hrest : Expands layout layout') :
      Expands (g :: layout) (g :: layout')
  /-- A group is written out. -/
  | expand (g : Group) {layout layout' : Layout} (hstring : g.code.isString = false)
      (hrest : Expands layout layout') :
      Expands (g :: layout) (List.replicate g.count g.single ++ layout')

theorem Expands.sameUnits (h : Expands layout layout') : layout.SameUnits layout' := by
  induction h with
  | nil => exact .refl []
  | keep g _ ih => exact (SameUnits.refl [g]).append ih
  | expand g hstring _ ih => exact (sameUnits_replicate hstring).append ih

/-! ## Where an amount runs out -/

variable {demand : Group → ℕ} {n k : ℕ}

/-- What is left of an amount behind the first `k` groups. -/
def left (demand : Group → ℕ) (layout : Layout) (n k : ℕ) : ℕ :=
  n - ((layout.take k).map demand).sum

/-- An amount runs out within a repeated group: it suffices for the groups before it and for some
of its units, but not for all of them. -/
structure EndsWithin (demand : Group → ℕ) (layout : Layout) (n k : ℕ) (g : Group) : Prop where
  getElem?_eq : layout[k]? = some g
  isString_eq : g.code.isString = false
  one_lt_count : 1 < g.count
  left_pos : 0 < layout.left demand n k
  left_lt : layout.left demand n k < demand g

theorem left_cons (g : Group) (layout : Layout) :
    left demand (g :: layout) n (k + 1) = layout.left demand (n - demand g) k := by
  rw [left, left, List.take_succ_cons, List.map_cons, List.sum_cons, Nat.sub_sub]

theorem EndsWithin.cons {g' : Group} (h : EndsWithin demand layout (n - demand g) k g') :
    EndsWithin demand (g :: layout) n (k + 1) g' := by
  refine ⟨h.getElem?_eq, h.isString_eq, h.one_lt_count, ?_, ?_⟩
  · rw [left_cons]
    exact h.left_pos
  · rw [left_cons]
    exact h.left_lt

/-! ## Loose packing -/

/-- A result of loose packing and that for single groups: the same, or values run out within a
repeated group, and the units that are still covered there are the difference. -/
def PackTrails (layout : Layout) (vs : List Value) (r r' : Except Error Bytes) : Prop :=
  r' = r ∨ ∃ (k : ℕ) (g : Group) (packed : Bytes),
    EndsWithin Group.valueCount layout vs.length k g ∧ r = .ok packed ∧
      ∀ packed', r' = .ok packed' → packed <+: packed' ∧
        packed'.length = packed.length + layout.left Group.valueCount vs.length k * g.size

/-- Groups that are covered are stored before whatever comes behind them. -/
theorem pack_loose_append (h : layout.valueCount ≤ vs.length) (layout' : Layout) :
    pack (layout ++ layout') .loose vs =
      Except.all (layout.encodings vs) >>= fun units =>
        (pack layout' .loose (vs.drop layout.valueCount)).map (layout.assemble units ++ ·) := by
  rw [pack_loose, packScan_append h, pack_loose]
  cases Except.all (layout.encodings vs) with
  | error e => rfl
  | ok units => cases packScan layout' (vs.drop layout.valueCount) <;> rfl

theorem pack_loose_of_lt (h : vs.length < g.valueCount) :
    pack (g :: layout) .loose vs = .ok [] := by
  rw [pack_loose, packScan_of_lt h]
  rfl

/-- A group that is covered, or the same units in other groups, keep the results apart as far as
they were. -/
theorem PackTrails.cons {first : Layout} (hfirst : SameUnits [g] first)
    (hg : g.valueCount ≤ vs.length)
    (h : layout.PackTrails (vs.drop g.valueCount) (pack layout .loose (vs.drop g.valueCount))
      (pack layout' .loose (vs.drop g.valueCount))) :
    PackTrails (g :: layout) vs (pack (g :: layout) .loose vs)
      (pack (first ++ layout') .loose vs) := by
  have hcount : valueCount [g] = g.valueCount := Nat.add_zero _
  have hcount' : valueCount first = g.valueCount := hfirst.valueCount_eq.trans hcount
  have hsplit := pack_loose_append (hcount.trans_le hg) layout
  have hsplit' := pack_loose_append (hcount'.trans_le hg) layout'
  rw [List.singleton_append, hcount] at hsplit
  rw [hcount', hfirst.encodings_eq] at hsplit'
  rw [hsplit, hsplit']
  cases Except.all (encodings [g] vs) with
  | error e => exact .inl rfl
  | ok units =>
    simp only [hfirst.assemble_eq]
    rcases h with h | ⟨k, g', packed, hends, hpacked, hmore⟩
    · exact .inl (by rw [h])
    · rw [List.length_drop] at hends hmore
      refine .inr ⟨k + 1, g', assemble [g] units ++ packed, hends.cons, ?_, ?_⟩
      · rw [hpacked]
        rfl
      · intro packed' hpacked'
        obtain ⟨rest, hrest, rfl⟩ := Except.map_eq_ok_iff.mp hpacked'
        obtain ⟨hfront, hlen⟩ := hmore rest hrest
        refine ⟨(List.prefix_append_right_inj _).mpr hfront, ?_⟩
        rw [List.length_append, hlen, List.length_append, left_cons, Nat.add_assoc]

/-- Of a group that is not covered, single groups store the units for which there are values. -/
theorem length_of_pack_loose_replicate (hwf : g.WellFormed) (hstring : g.code.isString = false)
    (hpos : 0 < vs.length) (hlt : vs.length < g.count) (hpad : g.code.isPad = false)
    {packed : Bytes}
    (h : pack (List.replicate g.count g.single ++ layout) .loose vs = .ok packed) :
    packed.length = vs.length * g.size := by
  -- The single groups with values make up a group of their own; the next one stops the scan.
  obtain ⟨part, hpart⟩ : ∃ part : Group, part = { g with count := vs.length } := ⟨_, rfl⟩
  have hsame : SameUnits [part] (List.replicate vs.length g.single) := by
    rw [hpart]
    exact sameUnits_replicate (g := { g with count := vs.length }) hstring
  have hwfPart : part.WellFormed := by
    rw [hpart]
    exact ⟨hpos, hlt.le.trans hwf.count_le, hwf.size_eq⟩
  have hcount : part.valueCount = vs.length := by
    rw [Group.valueCount_of_not_isPad (by rw [hpart]; exact hpad),
      Group.units_of_not_isString (by rw [hpart]; exact hstring), hpart]
  have hone : g.single.valueCount = 1 := by rw [Group.valueCount_single, hpad]; rfl
  obtain ⟨r, hr⟩ : ∃ r, g.count = vs.length + (r + 1) := ⟨g.count - vs.length - 1, by omega⟩
  have hcovered : valueCount (List.replicate vs.length g.single) = vs.length := by
    rw [valueCount_replicate, hone, Nat.mul_one]
  rw [hr, List.replicate_add, List.append_assoc, List.replicate_succ, List.cons_append,
    pack_loose_append hcovered.le, hcovered, List.drop_length, pack_loose_of_lt (by simp [hone]),
    hsame.encodings_eq, encodings_cons hcount.le, encodings_nil, List.append_nil, hcount,
    List.take_length] at h
  obtain ⟨units, hall, hpacked⟩ := Except.bind_eq_ok_iff.mp h
  obtain ⟨hlen, hunits⟩ := hwfPart.length_of_all hcount.ge hall
  obtain rfl := Except.ok.inj hpacked
  change (assemble (List.replicate vs.length g.single) units ++ []).length = _
  rw [List.append_nil, hsame.assemble_eq, assemble, assemble, List.append_nil, hcount, ← hlen,
    List.take_length, Group.length_join (hlen.trans hcount.symm) hunits, hlen, hpart]
  rfl

theorem packTrails_of_expands (hwf : ∀ g ∈ layout, g.WellFormed) (h : Expands layout layout')
    (vs : List Value) :
    layout.PackTrails vs (layout.pack .loose vs) (layout'.pack .loose vs) := by
  induction h generalizing vs with
  | nil => exact .inl rfl
  | keep g hrest ih =>
    by_cases hg : g.valueCount ≤ vs.length
    · exact (ih (List.forall_mem_cons.mp hwf).2 _).cons (.refl [g]) hg
    · have hlt := Nat.not_le.mp hg
      exact .inl (by rw [pack_loose_of_lt hlt, pack_loose_of_lt hlt])
  | @expand g layout layout' hstring hrest ih =>
    obtain ⟨hgroup, hgroups⟩ := List.forall_mem_cons.mp hwf
    by_cases hg : g.valueCount ≤ vs.length
    · exact (ih hgroups _).cons (sameUnits_replicate hstring) hg
    · have hlt := Nat.not_le.mp hg
      have hpad := Group.isPad_of_valueCount_ne_zero (Nat.ne_zero_of_lt hlt)
      have hcount : g.valueCount = g.count := by
        rw [Group.valueCount_of_not_isPad hpad, Group.units_of_not_isString hstring]
      rw [pack_loose_of_lt hlt]
      rcases Nat.eq_zero_or_pos vs.length with hnil | hpos
      · -- Not even one unit has a value, so the first single group stops the scan as well.
        obtain ⟨r, hr⟩ := Nat.exists_eq_succ_of_ne_zero (Nat.ne_of_gt hgroup.one_le_count)
        have hone : vs.length < g.single.valueCount := by
          rw [Group.valueCount_single, hpad, hnil]
          exact Nat.one_pos
        exact .inl (by rw [hr, List.replicate_succ, List.cons_append, pack_loose_of_lt hone])
      · have hleft : left Group.valueCount (g :: layout) vs.length 0 = vs.length := Nat.sub_zero _
        refine .inr ⟨0, g, [], ⟨rfl, hstring, by omega, by omega, by omega⟩, rfl, ?_⟩
        intro packed hpacked
        refine ⟨List.nil_prefix, ?_⟩
        rw [length_of_pack_loose_replicate hgroup hstring hpos (by omega) hpad hpacked, hleft,
          List.length_nil, Nat.zero_add]

/-! ## Loose unpacking -/

/-- Values from loose unpacking and those for single groups: the same, or bytes run out within a
repeated group, and the units that are still covered there are the difference. -/
def UnpackTrails (layout : Layout) (bs : Bytes) (vs vs' : List Value) : Prop :=
  vs' = vs ∨ ∃ (k : ℕ) (g : Group), EndsWithin Group.byteLength layout bs.length k g ∧
    vs <+: vs' ∧ vs'.length = vs.length + layout.left Group.byteLength bs.length k / g.size

theorem UnpackTrails.cons {first : Layout} (hfirst : SameUnits [g] first)
    (hg : g.byteLength ≤ bs.length)
    (h : layout.UnpackTrails (bs.drop g.byteLength) (layout.unpackScan (bs.drop g.byteLength)).1
      (layout'.unpackScan (bs.drop g.byteLength)).1) :
    UnpackTrails (g :: layout) bs (unpackScan (g :: layout) bs).1
      (unpackScan (first ++ layout') bs).1 := by
  have hlength : byteLength [g] = g.byteLength := Nat.add_zero _
  have hlength' : byteLength first = g.byteLength := hfirst.byteLength_eq.trans hlength
  have hsplit := unpackScan_append (hlength.trans_le hg) layout
  have hsplit' := unpackScan_append (hlength'.trans_le hg) layout'
  rw [List.singleton_append, hlength] at hsplit
  rw [hlength', hfirst.decodings_eq] at hsplit'
  rw [hsplit, hsplit']
  rcases h with h | ⟨k, g', hends, hfront, hlen⟩
  · exact .inl (by rw [h])
  · rw [List.length_drop] at hends hlen
    refine .inr ⟨k + 1, g', hends.cons, (List.prefix_append_right_inj _).mpr hfront, ?_⟩
    rw [List.length_append, hlen, List.length_append, left_cons, Nat.add_assoc]

/-- Of a group that is not covered, single groups give the values of the units for which there
are bytes. -/
theorem length_unpackScan_replicate (hwf : g.WellFormed) (hlt : bs.length < g.byteLength)
    (layout : Layout) :
    (unpackScan (List.replicate g.count g.single ++ layout) bs).1.length =
      bs.length / g.size * g.single.valueCount := by
  have hunits := hwf.div_size_lt hlt
  obtain ⟨r, hr⟩ : ∃ r, g.count = bs.length / g.size + (r + 1) :=
    ⟨g.count - bs.length / g.size - 1, by omega⟩
  have hlength := byteLength_replicate (bs.length / g.size) g.single
  rw [Group.byteLength_single] at hlength
  have hcovered : byteLength (List.replicate (bs.length / g.size) g.single) ≤ bs.length := by
    rw [hlength]
    exact Nat.div_mul_le_self _ _
  -- Fewer bytes than a unit are left for the next single group.
  have hstop : (bs.drop (bs.length / g.size * g.size)).length < g.single.byteLength := by
    have hdiv := Nat.div_add_mod' bs.length g.size
    have hmod := Nat.mod_lt bs.length hwf.size_pos
    rw [List.length_drop, Group.byteLength_single]
    omega
  have hsingle : ∀ g' ∈ List.replicate (bs.length / g.size) g.single, g'.WellFormed := by
    intro g' hg'
    rw [List.eq_of_mem_replicate hg']
    exact hwf.single
  obtain ⟨ws, hws⟩ := exists_decodings_eq hsingle hcovered
  rw [hr, List.replicate_add, List.append_assoc, List.replicate_succ, List.cons_append,
    unpackScan_append hcovered, hlength, unpackScan_of_lt hstop, hws]
  simp [length_of_decodings_eq hcovered hws, valueCount_replicate]

theorem unpackTrails_of_expands (hwf : ∀ g ∈ layout, g.WellFormed) (h : Expands layout layout')
    (bs : Bytes) :
    layout.UnpackTrails bs (layout.unpackScan bs).1 (layout'.unpackScan bs).1 := by
  induction h generalizing bs with
  | nil => exact .inl rfl
  | keep g hrest ih =>
    by_cases hg : g.byteLength ≤ bs.length
    · exact (ih (List.forall_mem_cons.mp hwf).2 _).cons (.refl [g]) hg
    · have hlt := Nat.not_le.mp hg
      exact .inl (by rw [unpackScan_of_lt hlt, unpackScan_of_lt hlt])
  | @expand g layout layout' hstring hrest ih =>
    obtain ⟨hgroup, hgroups⟩ := List.forall_mem_cons.mp hwf
    by_cases hg : g.byteLength ≤ bs.length
    · exact (ih hgroups _).cons (sameUnits_replicate hstring) hg
    · have hlt := Nat.not_le.mp hg
      have hlen := length_unpackScan_replicate hgroup hlt layout'
      rw [unpackScan_of_lt hlt]
      by_cases hnone : bs.length / g.size * g.single.valueCount = 0
      · exact .inl (List.length_eq_zero_iff.mp (hlen.trans hnone))
      · have hunits : 0 < bs.length / g.size :=
          Nat.pos_of_ne_zero (Nat.mul_ne_zero_iff.mp hnone).1
        have hone : g.single.valueCount = 1 := by
          have hpos := (Nat.mul_ne_zero_iff.mp hnone).2
          rw [Group.valueCount_single] at hpos ⊢
          split <;> simp_all
        have hcount := hgroup.div_size_lt hlt
        have hleft : left Group.byteLength (g :: layout) bs.length 0 = bs.length := Nat.sub_zero _
        refine .inr ⟨0, g, ⟨rfl, hstring, by omega, ?_, hleft.trans_lt hlt⟩, List.nil_prefix, ?_⟩
        · rw [hleft]
          exact Nat.pos_of_div_pos hunits
        · rw [hlen, hleft, hone, Nat.mul_one, List.length_nil, Nat.zero_add]

end Layout

/-- A layout whose repeated groups are written out one by one, any of them, has the same slots and
covers the same bytes, and in strict operation it packs and unpacks alike, errors included. In
loose operation the results are the same unless values or bytes run out within a repeated group.
Then the single groups refuse a value there or store the units that still have one, and read the
units that are still there; before that the results are the same. -/
theorem Format.repeat_eq_expanded (f : Format) {expanded : Layout}
    (h : f.layout.Expands expanded) :
    expanded.byteLength = f.layout.byteLength ∧ expanded.valueCount = f.layout.valueCount ∧
    List.Forall₂ Group.SameUnit f.layout.slots expanded.slots ∧
    (∀ vs : List Value, expanded.pack .strict vs = f.layout.pack .strict vs) ∧
    (∀ bs : Bytes, expanded.unpack .strict bs = f.layout.unpack .strict bs) ∧
    (∀ vs : List Value, expanded.pack .loose vs = f.layout.pack .loose vs ∨
      ∃ (k : ℕ) (g : Group) (packed : Bytes),
        f.layout.EndsWithin Group.valueCount vs.length k g ∧ f.layout.pack .loose vs = .ok packed ∧
        ∀ packed', expanded.pack .loose vs = .ok packed' → packed <+: packed' ∧
          packed'.length =
            packed.length + f.layout.left Group.valueCount vs.length k * g.size ∧
          packed'.length < packed.length + g.byteLength) ∧
    ∀ bs : Bytes, ∃ vs vs' : List Value,
      f.layout.unpack .loose bs = .ok vs ∧ expanded.unpack .loose bs = .ok vs' ∧ vs <+: vs' ∧
        (vs' = vs ∨ ∃ (k : ℕ) (g : Group),
          f.layout.EndsWithin Group.byteLength bs.length k g ∧
          vs'.length = vs.length + f.layout.left Group.byteLength bs.length k / g.size) := by
  have hsame := h.sameUnits
  refine ⟨hsame.byteLength_eq, hsame.valueCount_eq, hsame.slots, hsame.pack_strict_eq,
    hsame.unpack_strict_eq, ?_, ?_⟩
  · intro vs
    rcases Layout.packTrails_of_expands f.wellFormed.groups h vs with
      heq | ⟨k, g, packed, hends, hpacked, hmore⟩
    · exact .inl heq
    · refine .inr ⟨k, g, packed, hends, hpacked, ?_⟩
      intro packed' hpacked'
      obtain ⟨hfront, hlen⟩ := hmore packed' hpacked'
      have hgroup := f.wellFormed.groups g (List.mem_of_getElem? hends.getElem?_eq)
      have hpartial := Nat.mul_lt_mul_of_pos_right
        (hends.left_lt.trans_le (g.valueCount_le_count hends.isString_eq)) hgroup.size_pos
      exact ⟨hfront, hlen, by rw [hlen]; exact Nat.add_lt_add_left hpartial _⟩
  · intro bs
    refine ⟨_, _, Layout.unpack_loose f.layout bs, Layout.unpack_loose expanded bs, ?_⟩
    rcases Layout.unpackTrails_of_expands f.wellFormed.groups h bs with
      heq | ⟨k, g, hends, hfront, hlen⟩
    · exact ⟨heq ▸ List.prefix_rfl, .inl heq⟩
    · exact ⟨hfront, .inr ⟨k, g, hends, hlen⟩⟩

/-- With three of the four values or bytes of the only repeated group, that group gives nothing
and single groups give all three; with a value that is refused there, single groups fail. -/
theorem Format.repeat_eq_expanded_partial :
    ∃ (f : Format) (expanded : Layout), f.text = "h4BxH" ∧ f.layout.Expands expanded ∧
      expanded.length = 7 ∧
      (∀ vs : List Value, expanded.pack .strict vs = f.layout.pack .strict vs) ∧
      (∀ bs : Bytes, expanded.unpack .strict bs = f.layout.unpack .strict bs) ∧
      (∃ packed packed', f.layout.pack .loose [.int 1, .int 2, .int 3, .int 4] = .ok packed ∧
        expanded.pack .loose [.int 1, .int 2, .int 3, .int 4] = .ok packed' ∧
        packed <+: packed' ∧ packed'.length = packed.length + 3) ∧
      (∃ vs vs', f.layout.unpack .loose [1, 0, 2, 3, 4] = .ok vs ∧
        expanded.unpack .loose [1, 0, 2, 3, 4] = .ok vs' ∧
        vs <+: vs' ∧ vs'.length = vs.length + 3) ∧
      expanded.pack .loose [.int 1, .int 256] = .error (.outOfRange .uint8 256) := by
  obtain ⟨layout, hlayout⟩ : ∃ layout : Layout, layout = [⟨1, .int16, .little, 2⟩,
      ⟨4, .uint8, .little, 1⟩, ⟨1, .pad, .little, 1⟩, ⟨1, .uint16, .little, 2⟩] := ⟨_, rfl⟩
  obtain ⟨expanded, hexpanded⟩ : ∃ layout : Layout, layout = [⟨1, .int16, .little, 2⟩,
      ⟨1, .uint8, .little, 1⟩, ⟨1, .uint8, .little, 1⟩, ⟨1, .uint8, .little, 1⟩,
      ⟨1, .uint8, .little, 1⟩, ⟨1, .pad, .little, 1⟩, ⟨1, .uint16, .little, 2⟩] := ⟨_, rfl⟩
  have hparse : Layout.parse "h4BxH" = .ok layout := by
    rw [hlayout]
    decide
  have hexpands : layout.Expands expanded := by
    rw [hlayout, hexpanded]
    exact .keep _ (.expand ⟨4, .uint8, .little, 1⟩ rfl (.keep _ (.keep _ .nil)))
  obtain ⟨-, -, -, hstrict, hstrict', hloose, hloose'⟩ :=
    repeat_eq_expanded ⟨"h4BxH", layout, hparse⟩ hexpands
  dsimp only at hloose hloose'
  -- Only one group is repeated, so it is the one within which values and bytes run out.
  have hrepeated : ∀ {demand n k g}, layout.EndsWithin demand n k g →
      k = 1 ∧ g = ⟨4, .uint8, .little, 1⟩ := by
    rintro demand n k g ⟨hg, -, hcount, -, -⟩
    rw [hlayout] at hg
    match k with
    | 0 | 2 | 3 => simp [← Option.some.inj hg] at hcount
    | 1 => exact ⟨rfl, (Option.some.inj hg).symm⟩
    | _ + 4 => simp at hg
  refine ⟨⟨"h4BxH", layout, hparse⟩, expanded, rfl, hexpands, by rw [hexpanded]; rfl, hstrict,
    hstrict', ?_, ?_, by rw [hexpanded]; decide⟩
  · have hpack' : expanded.pack .loose [.int 1, .int 2, .int 3, .int 4] =
        .ok [1, 0, 2, 3, 4] := by
      rw [hexpanded]
      decide
    rcases hloose [.int 1, .int 2, .int 3, .int 4] with
      heq | ⟨k, g, packed, hends, hpacked, hmore⟩
    · rw [hexpanded, hlayout] at heq
      exact absurd heq (by decide)
    · obtain ⟨rfl, rfl⟩ := hrepeated hends
      obtain ⟨hfront, hlength, -⟩ := hmore _ hpack'
      exact ⟨packed, _, hpacked, hpack', hfront, by rw [hlength, hlayout]; rfl⟩
  · obtain ⟨vs, vs', hvs, hvs', hfront, heq | ⟨k, g, hends, hlength⟩⟩ :=
      hloose' [1, 0, 2, 3, 4]
    · rw [heq, ← hvs, hexpanded, hlayout] at hvs'
      exact absurd hvs' (by decide)
    · obtain ⟨rfl, rfl⟩ := hrepeated hends
      exact ⟨vs, vs', hvs, hvs', hfront, by rw [hlength, hlayout]; rfl⟩

end BinaryRecord
