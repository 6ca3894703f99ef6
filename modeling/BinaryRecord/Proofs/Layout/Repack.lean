import BinaryRecord.Probe
import BinaryRecord.Proofs.Code.Normal
import BinaryRecord.Proofs.Format.Bounds
import BinaryRecord.Proofs.Layout.Covered

/-!
# Packing what was unpacked

Whatever bytes are given, what they are unpacked to can be packed again. The bytes
come out in normal form, and behind them the pads that need no further values. So the
output may be longer than the bytes that were there, but not longer than the layout.

## Main definitions

* `Layout.normalize`: bytes in the normal form of a layout.
* `Layout.repacked`: what comes out when some groups were covered.
-/

namespace BinaryRecord

namespace Group
variable {g : Group}

/-- The unit that is stored again for a unit of the group. -/
def normalUnit (g : Group) (unit : Bytes) : Bytes := g.code.normalUnit g.order unit

/-- The bytes of the group in normal form; those of a pad are fill. -/
def normalize (g : Group) (bs : Bytes) : Bytes :=
  g.join ((cut g.unitLength g.valueCount bs).map g.normalUnit)

/-- Only the bytes that the group covers are looked at. -/
theorem normalize_take {n : ℕ} (bs : Bytes) (h : g.byteLength ≤ n) :
    g.normalize (bs.take n) = g.normalize bs := by
  rw [normalize, normalize, cut_take _ _ (Nat.le_trans g.valueCount_mul_unitLength_le h)]

/-- A unit that was read is stored again in normal form. -/
theorem encodeUnit_decodeUnit (hwf : g.WellFormed) {unit : Bytes} {v : Value}
    (hlen : unit.length = g.unitLength) (h : g.decodeUnit unit = some v) :
    g.encodeUnit v = .ok (g.normalUnit unit) := by
  have hwidth : g.code.isString = false → unit.length = g.code.width := by
    intro hstring
    rw [hlen, hwf.unitLength_eq, hstring, if_neg Bool.false_ne_true]
  rw [encodeUnit, ← hlen]
  exact Code.encode_decode hwidth h

end Group

namespace Layout
variable {layout : Layout} {bs : Bytes} {vs : List Value}

/-- The bytes of the layout with each group in normal form. -/
def normalize : Layout → Bytes → Bytes
  | [], _ => []
  | g :: layout, bs => g.normalize bs ++ normalize layout (bs.drop g.byteLength)

/-- The units of the layout in normal form. -/
def normalUnits (layout : Layout) (bs : Bytes) : List Bytes :=
  List.zipWith Group.normalUnit layout.slots (layout.dissect bs)

theorem assemble_normalUnits (layout : Layout) (bs : Bytes) :
    layout.assemble (layout.normalUnits bs) = layout.normalize bs := by
  induction layout generalizing bs with
  | nil => rfl
  | cons g layout ih =>
    have hcut := Group.length_cut g.unitLength g.valueCount bs
    rw [normalUnits, dissect, zipWith_slots_cons _ (by simp [hcut]), List.take_left' hcut,
      List.drop_left' hcut, assemble_cons_append (by simp [hcut]), normalize, ← ih]
    rfl

/-- What was read is stored again in normal form. -/
theorem encodings_of_decodings (hwf : layout.WellFormed) (h : layout.byteLength ≤ bs.length)
    (hvs : layout.decodings bs = vs.map some) :
    layout.encodings vs = (layout.normalUnits bs).map .ok := by
  have hfits := fits_dissect h
  apply List.ext_getElem?
  intro j
  cases hg : layout.slots[j]? with
  | none => simp [encodings, normalUnits, List.getElem?_zipWith, hg]
  | some g =>
    obtain ⟨unit, hunit, hlen⟩ := hfits.exists_unit hg
    have hdecode := getElem?_decodings hg hunit
    rw [hvs, List.getElem?_map] at hdecode
    obtain ⟨v, hv, hread⟩ := Option.map_eq_some_iff.mp hdecode
    have hmem := (isPad_of_mem_slots (List.mem_of_getElem? hg)).1
    rw [getElem?_encodings hg hv, Group.encodeUnit_decodeUnit (hwf.groups g hmem) hlen hread.symm,
      List.getElem?_map, normalUnits, List.getElem?_zipWith, hg, hunit]
    rfl

/-- What comes out when the first `k` groups were covered: their bytes in normal form and
fill for the run of pads behind them. -/
def repacked (layout : Layout) (k : ℕ) (bs : Bytes) : Bytes :=
  normalize (layout.take k) (bs.take (byteLength (layout.take k))) ++
    fill (byteLength ((layout.drop k).takeWhile (·.code.isPad)))

theorem normalize_take {n : ℕ} (h : layout.byteLength ≤ n) :
    layout.normalize (bs.take n) = layout.normalize bs := by
  induction layout generalizing bs n with
  | nil => rfl
  | cons g layout ih =>
    rw [byteLength] at h
    rw [normalize, normalize, List.drop_take, ih (by omega), Group.normalize_take _ (by omega)]

theorem byteLength_takeWhile_le (layout : Layout) :
    byteLength (layout.takeWhile (·.code.isPad)) ≤ layout.byteLength := by
  obtain ⟨rest, hrest⟩ := List.takeWhile_prefix (l := layout) (·.code.isPad)
  have hlen := congrArg byteLength hrest
  rw [byteLength_append] at hlen
  omega

section Covered
variable {k : ℕ} (hwf : layout.WellFormed) (hcovered : byteLength (layout.take k) ≤ bs.length)
  (hvs : decodings (layout.take k) bs = vs.map some)
include hwf hcovered hvs

theorem pack_loose_of_decodings_take : layout.pack .loose vs = .ok (layout.repacked k bs) := by
  have hlen := length_of_decodings_eq hcovered hvs
  have hstored := Except.all_eq_ok_iff.mpr (encodings_of_decodings (hwf.take k) hcovered hvs)
  have hbeyond := (hwf.drop k).groups
  obtain ⟨p, hscan, hp⟩ := Except.map_eq_ok_iff.mp (packScan_nil_values hbeyond)
  have hsplit := packScan_append hlen.ge (layout.drop k)
  rw [List.take_append_drop, hstored, ← hlen, List.drop_length, hscan] at hsplit
  rw [pack_loose, hsplit, repacked, normalize_take (Nat.le_refl _), ← hp, ← assemble_normalUnits]
  rfl

theorem pack_strict_of_decodings_take :
    layout.pack .strict vs =
      if (layout.drop k).all (·.code.isPad) then .ok (layout.repacked k bs)
      else .error (.tooFewValues layout.valueCount vs.length) := by
  have hlen := length_of_decodings_eq hcovered hvs
  have hsplit := valueCount_take_add layout k
  have hbeyond := (hwf.drop k).groups
  by_cases hpads : (layout.drop k).all (·.code.isPad) = true
  · have hzero := (valueCount_eq_zero_iff hbeyond).mpr hpads
    rw [if_pos hpads, pack_strict_eq_pack_loose (by omega)]
    exact pack_loose_of_decodings_take hwf hcovered hvs
  · have hpos := mt (valueCount_eq_zero_iff hbeyond).mp hpads
    rw [if_neg hpads]
    exact pack_strict_of_lt (by omega)

theorem length_repacked_le : (layout.repacked k bs).length ≤ layout.byteLength := by
  have hlen := length_of_decodings_eq hcovered hvs
  have hfits := fits_of_encodings (hwf.take k) hlen.ge
    (encodings_of_decodings (hwf.take k) hcovered hvs)
  have hnormal := length_assemble hfits
  rw [assemble_normalUnits] at hnormal
  have hsplit := byteLength_take_add layout k
  have hpads := byteLength_takeWhile_le (layout.drop k)
  rw [repacked, normalize_take (Nat.le_refl _), List.length_append, length_fill, hnormal]
  omega

end Covered

/-- Loose unpacking reads the groups whose bytes are all there. -/
theorem exists_unpack_loose_eq (hwf : layout.WellFormed) (bs : Bytes) :
    ∃ vs, layout.unpack .loose bs = .ok vs ∧
      decodings (layout.take (layout.covered Group.byteLength bs.length)) bs = vs.map some := by
  have hcovered := byteLength_take_covered_le layout bs.length
  obtain ⟨vs, hvs⟩ := exists_decodings_eq (hwf.take _).groups hcovered
  refine ⟨vs, ?_, hvs⟩
  rw [unpack_loose, unpackScan_fst, hvs]
  simp

end Layout

theorem Probe.roundTrip_eq_true (data : Bytes) : roundTrip data = true := by
  unfold roundTrip
  cases hparse : Layout.parse (split data).1 with
  | error e => simp [hparse]
  | ok layout =>
    have hwf := Layout.wellFormed_of_parse hparse
    have hcovered := Layout.byteLength_take_covered_le layout (split data).2.length
    obtain ⟨vs, hunpack, hvs⟩ := Layout.exists_unpack_loose_eq hwf (split data).2
    simp [hparse, hunpack, Layout.pack_loose_of_decodings_take hwf hcovered hvs,
      Layout.length_repacked_le hwf hcovered hvs]

/-- What any bytes are unpacked to can be packed again, and this only normalises. The
first `k` groups are those whose bytes are all there. Their bytes come out in normal
form, with fill for the run of pads behind them. Strict packing gives the same if only
pads are missing and otherwise lacks values. The output is never longer than the
layout, which is what the probe asks. -/
theorem pack_unpack_loose :
    (∀ (f : Format) (bs : Bytes), ∃ (k : ℕ) (vs : List Value),
      k ≤ f.layout.length ∧
      (∀ i < f.layout.length, i < k ↔ Layout.byteLength (f.layout.take (i + 1)) ≤ bs.length) ∧
      f.layout.unpack .loose bs = .ok vs ∧
      f.layout.pack .loose vs = .ok (f.layout.repacked k bs) ∧
      f.layout.pack .strict vs =
        (if (f.layout.drop k).all (·.code.isPad) then .ok (f.layout.repacked k bs)
          else .error (.tooFewValues f.layout.valueCount vs.length)) ∧
      (f.layout.repacked k bs).length ≤ f.layout.byteLength) ∧
    ∀ data : Bytes, Probe.roundTrip data = true := by
  refine ⟨?_, Probe.roundTrip_eq_true⟩
  intro f bs
  have hwf := f.wellFormed
  have hcovered := Layout.byteLength_take_covered_le f.layout bs.length
  obtain ⟨vs, hunpack, hvs⟩ := Layout.exists_unpack_loose_eq hwf bs
  exact ⟨_, vs, Layout.covered_le_length _ _, fun i hi => Layout.lt_covered_iff hi, hunpack,
    Layout.pack_loose_of_decodings_take hwf hcovered hvs,
    Layout.pack_strict_of_decodings_take hwf hcovered hvs,
    Layout.length_repacked_le hwf hcovered hvs⟩

end BinaryRecord
