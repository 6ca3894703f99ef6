import BinaryRecord.Proofs.Layout.Repack

/-!
# What unpacking does not see

Bytes that are the same in normal form are unpacked to the same values, and values that are the
same come from such bytes only. So unpacking is blind to pads, to the room behind the data of a
string with a length byte, to a length that promises more than there is, to the quiet bit of a
NaN of the 32-bit format and to all bytes behind the layout. Every other bit shows in a value.
-/

namespace BinaryRecord

namespace Group
variable {g : Group}

/-- A unit and its normal form are read alike. -/
theorem decodeUnit_normalUnit (hwf : g.WellFormed) {unit : Bytes}
    (hlen : unit.length = g.unitLength) : g.decodeUnit (g.normalUnit unit) = g.decodeUnit unit := by
  apply Code.decode_normalUnit
  intro hstring
  rw [hlen, hwf.unitLength_eq, hstring, if_neg Bool.false_ne_true]

end Group

namespace Layout
variable {layout : Layout} {bs bs' : Bytes}

theorem fits_normalUnits (hwf : layout.WellFormed) (h : layout.byteLength ≤ bs.length) :
    layout.Fits (layout.normalUnits bs) := by
  obtain ⟨vs, hvs⟩ := exists_decodings_eq hwf.groups h
  exact fits_of_encodings hwf (length_of_decodings_eq h hvs).ge (encodings_of_decodings hwf h hvs)

/-- Normalising changes nothing that is read. -/
theorem decodings_normalize (hwf : layout.WellFormed) (h : layout.byteLength ≤ bs.length) :
    layout.decodings (layout.normalize bs) = layout.decodings bs := by
  have hfits := fits_dissect h
  have hback := dissect_assemble (fits_normalUnits hwf h)
  rw [assemble_normalUnits] at hback
  apply List.ext_getElem?
  intro j
  rw [decodings, decodings, hback, normalUnits, List.getElem?_zipWith, List.getElem?_zipWith,
    List.getElem?_zipWith]
  cases hg : layout.slots[j]? with
  | none => rfl
  | some g =>
    obtain ⟨unit, hunit, hlen⟩ := hfits.exists_unit hg
    have hmem := (isPad_of_mem_slots (List.mem_of_getElem? hg)).1
    rw [hunit]
    exact congrArg some (Group.decodeUnit_normalUnit (hwf.groups g hmem) hlen)

/-- Bytes that are read alike are alike in normal form. -/
theorem normalize_eq_of_decodings_eq (hwf : layout.WellFormed) (h : layout.byteLength ≤ bs.length)
    (h' : layout.byteLength ≤ bs'.length) (hread : layout.decodings bs = layout.decodings bs') :
    layout.normalize bs = layout.normalize bs' := by
  obtain ⟨vs, hvs⟩ := exists_decodings_eq hwf.groups h
  have hstored := encodings_of_decodings hwf h hvs
  have hstored' := encodings_of_decodings hwf h' (hread.symm.trans hvs)
  have hunits : layout.normalUnits bs = layout.normalUnits bs' :=
    List.map_injective_iff.mpr (fun _ _ => Except.ok.inj) (hstored.symm.trans hstored')
  rw [← assemble_normalUnits, hunits, assemble_normalUnits]

/-- Two byte strings are read alike exactly if they are the same in normal form. -/
theorem decodings_eq_iff (hwf : layout.WellFormed) (h : layout.byteLength ≤ bs.length)
    (h' : layout.byteLength ≤ bs'.length) :
    layout.decodings bs = layout.decodings bs' ↔ layout.normalize bs = layout.normalize bs' := by
  constructor
  · exact normalize_eq_of_decodings_eq hwf h h'
  · intro hnormal
    rw [← decodings_normalize hwf h, hnormal, decodings_normalize hwf h']

end Layout

/-- Byte strings for the whole layout are unpacked to the same values exactly if the bytes of
the layout are the same in normal form. -/
theorem Format.unpack_eq_iff_normalize_eq (f : Format) {bs bs' : Bytes}
    (h : f.layout.byteLength ≤ bs.length) (h' : f.layout.byteLength ≤ bs'.length) :
    ∃ vs vs', f.layout.unpack .strict bs = .ok vs ∧ f.layout.unpack .strict bs' = .ok vs' ∧
      (vs = vs' ↔ f.layout.normalize (bs.take f.layout.byteLength) =
        f.layout.normalize (bs'.take f.layout.byteLength)) := by
  have hwf := f.wellFormed
  obtain ⟨vs, hvs⟩ := Layout.exists_decodings_eq hwf.groups h
  obtain ⟨vs', hvs'⟩ := Layout.exists_decodings_eq hwf.groups h'
  refine ⟨vs, vs', Layout.unpack_strict_of_le h hvs, Layout.unpack_strict_of_le h' hvs', ?_⟩
  have hinj : Function.Injective (List.map (some : Value → Option Value)) :=
    List.map_injective_iff.mpr (Option.some_injective Value)
  rw [Layout.normalize_take (Nat.le_refl _), Layout.normalize_take (Nat.le_refl _),
    ← Layout.decodings_eq_iff hwf h h', hvs, hvs', hinj.eq_iff]

/-- A pad, a quiet bit, a length byte that promises too much and a byte behind the layout do not
show in the values. -/
theorem Format.unpack_eq_iff_normalize_eq_slack :
    ∃ (f : Format) (vs : List Value), f.text = ">xf3p" ∧ f.layout.byteLength = 8 ∧
      f.layout.unpack .strict [9, 127, 160, 0, 0, 5, 65, 66, 7] = .ok vs ∧
      f.layout.unpack .strict [0, 127, 224, 0, 0, 2, 65, 66] = .ok vs := by
  have hparse : Layout.parse ">xf3p" = .ok
      [⟨1, .pad, .big, 1⟩, ⟨1, .float32, .big, 4⟩, ⟨3, .pascalString, .big, 1⟩] := by decide
  have hlen : Layout.byteLength
      [⟨1, .pad, .big, 1⟩, ⟨1, .float32, .big, 4⟩, ⟨3, .pascalString, .big, 1⟩] = 8 := by decide
  have hnormal : ∀ bs ∈ [[9, 127, 160, 0, 0, 5, 65, 66], [0, 127, 224, 0, 0, 2, 65, 66]],
      Layout.normalize [⟨1, .pad, .big, 1⟩, ⟨1, .float32, .big, 4⟩, ⟨3, .pascalString, .big, 1⟩]
        bs = [0, 127, 224, 0, 0, 2, 65, 66] := by decide
  obtain ⟨vs, vs', hvs, hvs', hiff⟩ := @unpack_eq_iff_normalize_eq ⟨">xf3p", _, hparse⟩
    [9, 127, 160, 0, 0, 5, 65, 66, 7] [0, 127, 224, 0, 0, 2, 65, 66]
    (by rw [hlen]; decide) (by rw [hlen]; decide)
  obtain rfl : vs = vs' := by
    rw [hiff, hlen]
    exact (hnormal _ (by decide)).trans (hnormal _ (by decide)).symm
  exact ⟨⟨">xf3p", _, hparse⟩, vs, rfl, hlen, hvs, hvs'⟩

end BinaryRecord
