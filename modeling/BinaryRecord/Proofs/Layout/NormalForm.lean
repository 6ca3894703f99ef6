import BinaryRecord.Proofs.Layout.Repack
import BinaryRecord.Proofs.Layout.Window

/-!
# Bytes in normal form

The byte strings that packing gives are those of the length of the layout in which pads
are zero, strings behind a length byte have no more data than room and zeros behind it, and no
number of the 32-bit format is a signalling NaN. Such bytes are unpacked and packed again
unchanged.

## Main definitions

* `Group.Normal`, `Layout.Normal`: bytes of a group and of a layout in normal form.
-/

namespace BinaryRecord

namespace Group
variable {g : Group} {bs : Bytes}

/-- Bytes of a group in normal form. Those of a pad are zero. The length byte of a string
promises no more data than there is room for, and zeros stand behind the data. No number of
the 32-bit format is a signalling NaN. Any other bytes are in normal form. -/
def Normal (g : Group) (bs : Bytes) : Prop :=
  match g.code with
  | .pad => ∀ b ∈ bs, b = 0
  | .pascalString =>
    ∃ n data, bs = n :: data ∧ n.toNat ≤ g.count - 1 ∧ ∀ b ∈ data.drop n.toNat, b = 0
  | .float32 =>
    ∀ u < g.count,
      (Binary32.mk (Word.ofBytes g.order ((bs.drop (u * 4)).take 4)).toUInt32).isSignalling = false
  | _ => True

/-! ## Pieces that are left alone -/

/-- Joining the pieces of a byte string undoes the cut. -/
theorem flatten_cut {length pieces : ℕ} (h : bs.length = pieces * length) :
    (cut length pieces bs).flatten = bs := by
  induction pieces generalizing bs with
  | zero =>
    rw [Nat.zero_mul] at h
    rw [cut, List.length_eq_zero_iff.mp h]
    rfl
  | succ pieces ih =>
    rw [Nat.succ_mul] at h
    rw [cut, List.flatten_cons, ih (by rw [List.length_drop]; omega), List.take_append_drop]

theorem join_cut (hpad : g.code.isPad = false) (hlen : bs.length = g.byteLength) :
    g.join (cut g.unitLength g.valueCount bs) = bs := by
  rw [join_of_not_isPad hpad]
  apply flatten_cut
  rw [hlen, valueCount_of_not_isPad hpad, units_mul_unitLength]

/-- A unit in normal form has the length of the unit. -/
theorem WellFormed.length_normalUnit (hwf : g.WellFormed) (hpad : g.code.isPad = false)
    {unit : Bytes} (hlen : unit.length = g.unitLength) :
    (g.normalUnit unit).length = g.unitLength := by
  obtain ⟨v, hv⟩ := Option.isSome_iff_exists.mp (hwf.isSome_decodeUnit hpad hlen)
  exact hwf.length_encodeUnit hpad (encodeUnit_decodeUnit hwf hlen hv)

/-- Bytes of a group are in normal form if each unit is. -/
theorem normalize_eq_self_iff_units (hwf : g.WellFormed) (hpad : g.code.isPad = false)
    (hlen : bs.length = g.byteLength) :
    g.normalize bs = bs ↔ ∀ unit ∈ cut g.unitLength g.valueCount bs, g.normalUnit unit = unit := by
  have hunits : g.valueCount * g.unitLength ≤ bs.length := by
    rw [hlen]
    exact g.valueCount_mul_unitLength_le
  rw [normalize]
  constructor
  · intro heq
    have hcount : ((cut g.unitLength g.valueCount bs).map g.normalUnit).length = g.valueCount := by
      rw [List.length_map, length_cut]
    have hlengths : ∀ unit ∈ (cut g.unitLength g.valueCount bs).map g.normalUnit,
        unit.length = g.unitLength := by
      intro unit hunit
      obtain ⟨unit, hmem, rfl⟩ := List.mem_map.mp hunit
      exact hwf.length_normalUnit hpad (length_of_mem_cut hunits hmem)
    -- Cutting the joined units again gives each in normal form, beside the unit it came from.
    have hback := cut_join_append hcount hlengths []
    rw [heq, List.append_nil] at hback
    exact List.map_eq_map_iff.mp (hback.symm.trans (List.map_id _).symm)
  · intro hnormal
    rw [List.map_congr_left hnormal, List.map_id', join_cut hpad hlen]

/-- The units of a group of the 32-bit format are in normal form if none is a signalling NaN. -/
theorem normal_float32_iff (hwf : g.WellFormed) (hcode : g.code = .float32)
    (hlen : bs.length = g.byteLength) :
    (∀ unit ∈ cut g.unitLength g.valueCount bs, g.normalUnit unit = unit) ↔ g.Normal bs := by
  have hsize : g.unitLength = 4 := by
    rw [hwf.unitLength_eq, hcode]
    rfl
  have hcount : g.valueCount = g.count := by
    simp [valueCount, units, hcode, Code.isPad, Code.isString]
  have hbytes : bs.length = g.count * 4 := by
    rw [hlen, byteLength, hwf.size_eq, hcode]
    rfl
  rw [cut_eq_map_range, hsize, hcount]
  simp only [List.forall_mem_map, List.mem_range, Normal, hcode]
  refine forall₂_congr fun u hu => ?_
  rw [normalUnit, hcode, Code.normalUnit, Code.quietUnit_eq_self_iff]
  rw [List.length_take, List.length_drop]
  omega

/-- The one unit of a string behind a length byte is all of its group. -/
theorem normal_pascalString_iff (hwf : g.WellFormed) (hcode : g.code = .pascalString)
    (hlen : bs.length = g.byteLength) :
    (∀ unit ∈ cut g.unitLength g.valueCount bs, g.normalUnit unit = unit) ↔ g.Normal bs := by
  have hcount : g.valueCount = 1 := by
    simp [valueCount, units, hcode, Code.isPad, Code.isString]
  have hsize : g.unitLength = bs.length := by
    rw [unitLength, hcode, hlen]
    rfl
  have hbytes : bs.length = g.count := by
    rw [hlen, byteLength, hwf.size_eq, hcode]
    exact Nat.mul_one _
  have hcut : cut g.unitLength g.valueCount bs = [bs] := by
    rw [hcount, hsize, cut, cut, List.take_length]
  obtain ⟨n, data, rfl⟩ : ∃ n data, bs = n :: data := by
    apply List.exists_cons_of_length_pos
    rw [hbytes]
    exact hwf.one_le_count
  have hroom : data.length = g.count - 1 := by
    rw [← hbytes, List.length_cons, Nat.add_sub_cancel]
  rw [hcut, List.forall_mem_singleton, normalUnit, hcode, Code.normalUnit,
    Code.settledUnit_eq_self_iff, hroom]
  simp [Normal, hcode]

/-- Normalising leaves the bytes of a group alone exactly if they are in normal form. -/
theorem normalize_eq_self_iff (hwf : g.WellFormed) (hlen : bs.length = g.byteLength) :
    g.normalize bs = bs ↔ g.Normal bs := by
  by_cases hpad : g.code.isPad = true
  · have hcode : g.code = .pad := by simpa [Code.isPad] using hpad
    rw [normalize, join_of_isPad hpad, eq_comm, fill, List.eq_replicate_iff, ← hlen]
    simp [Normal, hcode, fillByte]
  · rw [normalize_eq_self_iff_units hwf (by simpa using hpad) hlen]
    cases hcode : g.code with
    | pad => simp [hcode, Code.isPad] at hpad
    | float32 => exact normal_float32_iff hwf hcode hlen
    | pascalString => exact normal_pascalString_iff hwf hcode hlen
    | _ => simp [Normal, normalUnit, Code.normalUnit, hcode]

theorem WellFormed.length_normalize (hwf : g.WellFormed) (hlen : g.byteLength ≤ bs.length) :
    (g.normalize bs).length = g.byteLength := by
  have hunits := Nat.le_trans g.valueCount_mul_unitLength_le hlen
  apply length_join
  · rw [List.length_map, length_cut]
  · intro unit hunit
    obtain ⟨unit, hmem, rfl⟩ := List.mem_map.mp hunit
    cases hpad : g.code.isPad with
    | true => simp [valueCount_of_isPad hpad, cut] at hmem
    | false => exact hwf.length_normalUnit hpad (length_of_mem_cut hunits hmem)

end Group

namespace Layout
variable {g : Group} {layout : Layout} {bs packed : Bytes} {vs : List Value}

/-- Bytes of a layout in normal form: they have its length, and so are those of each group. -/
structure Normal (layout : Layout) (bs : Bytes) : Prop where
  length_eq : bs.length = layout.byteLength
  groups : ∀ (i : ℕ) (g : Group), layout[i]? = some g →
    g.Normal ((bs.drop (byteLength (layout.take i))).take g.byteLength)

theorem normal_cons_iff (hg : g.byteLength ≤ bs.length) : Normal (g :: layout) bs ↔
    g.Normal (bs.take g.byteLength) ∧ layout.Normal (bs.drop g.byteLength) := by
  constructor
  · rintro ⟨hlen, hgroups⟩
    refine ⟨hgroups 0 g rfl, ?_, ?_⟩
    · rw [List.length_drop, hlen, byteLength, Nat.add_sub_cancel_left]
    · intro i g' hg'
      simpa [byteLength] using hgroups (i + 1) g' (by simpa using hg')
  · rintro ⟨hfirst, hlen, hgroups⟩
    constructor
    · rw [List.length_drop] at hlen
      rw [byteLength]
      omega
    · intro i g' hg'
      cases i with
      | zero =>
        obtain rfl : g = g' := by simpa using hg'
        exact hfirst
      | succ i => simpa [byteLength] using hgroups i g' (by simpa using hg')

/-- Normalising leaves the bytes of a layout alone exactly if they are in normal form. -/
theorem normalize_eq_self_iff (hwf : ∀ g ∈ layout, g.WellFormed)
    (hlen : bs.length = layout.byteLength) : layout.normalize bs = bs ↔ layout.Normal bs := by
  induction layout generalizing bs with
  | nil =>
    obtain rfl : bs = [] := List.length_eq_zero_iff.mp hlen
    simp only [normalize, true_iff]
    exact ⟨rfl, by simp⟩
  | cons g layout ih =>
    obtain ⟨hg, hgroups⟩ := List.forall_mem_cons.mp hwf
    rw [byteLength] at hlen
    have hfirst : (bs.take g.byteLength).length = g.byteLength := by
      rw [List.length_take]
      omega
    have hrest : (bs.drop g.byteLength).length = byteLength layout := by
      rw [List.length_drop]
      omega
    have hlength : (g.normalize bs).length = g.byteLength := hg.length_normalize (by omega)
    have hsplit := List.take_append_drop g.byteLength bs
    rw [normal_cons_iff (by omega), ← Group.normalize_eq_self_iff hg hfirst, ← ih hgroups hrest,
      Group.normalize_take _ (Nat.le_refl _), normalize]
    constructor
    · intro heq
      exact List.append_inj (heq.trans hsplit.symm) (hlength.trans hfirst.symm)
    · rintro ⟨hgroup, hbehind⟩
      rw [hgroup, hbehind, hsplit]

/-- Each unit that was stored is in normal form. -/
theorem zipWith_normalUnit_of_encodings (hlen : layout.valueCount ≤ vs.length) {units : List Bytes}
    (hunits : layout.encodings vs = units.map .ok) :
    List.zipWith Group.normalUnit layout.slots units = units := by
  apply List.ext_getElem?
  intro j
  rw [List.getElem?_zipWith]
  cases hg : layout.slots[j]? with
  | none => simp [getElem?_eq_none_of_encodings hlen hunits hg]
  | some g =>
    obtain ⟨v, unit, hunit, hstored⟩ := exists_stored_of_encodings hlen hunits hg
    rw [hunit]
    exact congrArg some (Code.normalUnit_encode hstored)

/-- What was packed is in normal form. -/
theorem normalize_pack (hwf : layout.WellFormed) (h : layout.pack .strict vs = .ok packed) :
    layout.normalize packed = packed := by
  obtain ⟨hlen, units, hunits, rfl⟩ := pack_strict_eq_ok_iff.mp h
  have hfits := fits_of_encodings hwf hlen hunits
  rw [← assemble_normalUnits, normalUnits, dissect_assemble hfits,
    zipWith_normalUnit_of_encodings hlen hunits]

/-- Bytes for the whole layout are unpacked and packed again to their normal form. -/
theorem exists_repack (hwf : layout.WellFormed) (hlen : bs.length = layout.byteLength) :
    ∃ ws, layout.unpack .strict bs = .ok ws ∧
      layout.pack .strict ws = .ok (layout.normalize bs) := by
  obtain ⟨ws, hws⟩ := exists_decodings_eq hwf.groups hlen.ge
  refine ⟨ws, unpack_strict_of_le hlen.ge hws, ?_⟩
  apply pack_strict_eq_ok_iff.mpr
  exact ⟨(length_of_decodings_eq hlen.ge hws).ge, _, encodings_of_decodings hwf hlen.ge hws,
    assemble_normalUnits layout bs⟩

end Layout

/-- The byte strings that packing gives are those in normal form. They are unpacked and packed
again unchanged, and so is whatever was packed. -/
theorem Format.exists_pack_eq_iff_normal (f : Format) (bs : Bytes) :
    ((∃ vs, f.layout.pack .strict vs = .ok bs) ↔ f.layout.Normal bs) ∧
    (f.layout.Normal bs →
      ∃ ws, f.layout.unpack .strict bs = .ok ws ∧ f.layout.pack .strict ws = .ok bs) ∧
    ∀ vs, f.layout.pack .strict vs = .ok bs →
      ∃ ws, f.layout.unpack .strict bs = .ok ws ∧ f.layout.pack .strict ws = .ok bs := by
  have hwf := f.wellFormed
  have hnormal : ∀ vs, f.layout.pack .strict vs = .ok bs → f.layout.Normal bs := by
    intro vs hpack
    have hlen := Layout.length_of_pack_strict hwf hpack
    exact (Layout.normalize_eq_self_iff hwf.groups hlen).mp (Layout.normalize_pack hwf hpack)
  have hback : f.layout.Normal bs →
      ∃ ws, f.layout.unpack .strict bs = .ok ws ∧ f.layout.pack .strict ws = .ok bs := by
    intro h
    obtain ⟨ws, hunpack, hpack⟩ := Layout.exists_repack hwf h.length_eq
    rw [(Layout.normalize_eq_self_iff hwf.groups h.length_eq).mpr h] at hpack
    exact ⟨ws, hunpack, hpack⟩
  refine ⟨⟨?_, ?_⟩, hback, ?_⟩
  · rintro ⟨vs, hpack⟩
    exact hnormal vs hpack
  · intro h
    obtain ⟨ws, -, hpack⟩ := hback h
    exact ⟨ws, hpack⟩
  · intro vs hpack
    exact hback (hnormal vs hpack)

/-- A signalling NaN is packed quiet, and a string that is too long is cut. Both are unpacked
and packed again unchanged. -/
theorem Format.exists_pack_eq_iff_normal_nan :
    ∃ (f : Format) (ws : List Value), f.text = ">xf3p" ∧
      f.layout.pack .strict [.float ⟨0x7FF4000000000000⟩, .bytes [65, 66, 67]] =
        .ok [0, 127, 224, 0, 0, 2, 65, 66] ∧
      f.layout.Normal [0, 127, 224, 0, 0, 2, 65, 66] ∧
      f.layout.unpack .strict [0, 127, 224, 0, 0, 2, 65, 66] = .ok ws ∧
      f.layout.pack .strict ws = .ok [0, 127, 224, 0, 0, 2, 65, 66] := by
  have hparse : Layout.parse ">xf3p" = .ok
      [⟨1, .pad, .big, 1⟩, ⟨1, .float32, .big, 4⟩, ⟨3, .pascalString, .big, 1⟩] := by decide
  have hpack : Layout.pack
      [⟨1, .pad, .big, 1⟩, ⟨1, .float32, .big, 4⟩, ⟨3, .pascalString, .big, 1⟩]
      .strict [.float ⟨0x7FF4000000000000⟩, .bytes [65, 66, 67]] =
        .ok [0, 127, 224, 0, 0, 2, 65, 66] := by decide
  obtain ⟨hnormal, hback, -⟩ :=
    exists_pack_eq_iff_normal ⟨">xf3p", _, hparse⟩ [0, 127, 224, 0, 0, 2, 65, 66]
  have hbytes := hnormal.mp ⟨_, hpack⟩
  obtain ⟨ws, hunpack, hrepack⟩ := hback hbytes
  exact ⟨⟨">xf3p", _, hparse⟩, ws, rfl, hpack, hbytes, hunpack, hrepack⟩

end BinaryRecord
