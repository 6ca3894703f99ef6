import BinaryRecord.Proofs.Code.Canonical
import BinaryRecord.Proofs.Format.Bounds
import BinaryRecord.Proofs.Layout.Scans

/-!
# Unpacking what was packed

Packed values are all there and come back in canonical form, one for each slot. This
holds of every layout that a format can describe.

## Main definitions

* `Group.canonical`, `Layout.canonical`: the values that come back from a slot and from all slots.
-/

namespace BinaryRecord

namespace Code

/-- Only strings take byte strings. -/
theorem isString_of_encode_bytes {c : Code} {count : ℕ} {o : ByteOrder} {data unit : Bytes}
    (hpad : c.isPad = false) (h : c.encode count o (.bytes data) = .ok unit) :
    c.isString = true := by
  cases hstring : c.isString with
  | true => rfl
  | false =>
    cases c <;>
      simp_all [isPad, isString, encode, kind, entry, integerWord, floatWord, Value.integer?,
        Value.float?, Except.map]

end Code

namespace Group
variable {g : Group}

/-- The value that comes back from a slot of the group. -/
def canonical (g : Group) (v : Value) : Value := g.code.canonical g.count v

theorem canonical_unitLength (hwf : g.WellFormed) (hpad : g.code.isPad = false) {v : Value}
    {unit : Bytes} (h : g.encodeUnit v = .ok unit) :
    g.code.canonical g.unitLength v = g.canonical v := by
  cases v with
  | bytes data =>
    have hstring := Code.isString_of_encode_bytes hpad h
    rw [canonical, hwf.unitLength_eq, if_pos hstring]
  | _ => rfl

/-- What was stored in a slot is read back from it in canonical form. -/
theorem decodeUnit_encodeUnit (hwf : g.WellFormed) (hpad : g.code.isPad = false) {v : Value}
    {unit : Bytes} (h : g.encodeUnit v = .ok unit) : g.decodeUnit unit = some (g.canonical v) := by
  rw [← canonical_unitLength hwf hpad h]
  exact Code.decode_encode hpad h

end Group

namespace Layout
variable {layout : Layout} {vs : List Value} {units : List Bytes}

/-- Each unit is read as the canonical form of the value that it stores. -/
theorem getElem?_decodings_assemble (hwf : layout.WellFormed) (hlen : layout.valueCount ≤ vs.length)
    (hunits : layout.encodings vs = units.map .ok) {j : ℕ} {g : Group} {v : Value}
    (hg : layout.slots[j]? = some g) (hv : vs[j]? = some v) :
    ∃ unit, g.encodeUnit v = .ok unit ∧
      (layout.decodings (layout.assemble units))[j]? = some (some (g.canonical v)) := by
  have hfits := fits_of_encodings hwf hlen hunits
  obtain ⟨unit, hunit, hstored⟩ := exists_unit_of_encodings hunits hg hv
  obtain ⟨hmem, hpad⟩ := isPad_of_mem_slots (List.mem_of_getElem? hg)
  refine ⟨unit, hstored, ?_⟩
  rw [← dissect_assemble hfits] at hunit
  rw [getElem?_decodings hg hunit, Group.decodeUnit_encodeUnit (hwf.groups g hmem) hpad hstored]

/-- The values that come back from the slots for values that were packed. -/
def canonical (layout : Layout) (vs : List Value) : List Value :=
  List.zipWith Group.canonical layout.slots vs

/-- All units together are read as the canonical forms of the values. -/
theorem decodings_assemble (hwf : layout.WellFormed) (hlen : layout.valueCount ≤ vs.length)
    {units : List Bytes} (hunits : layout.encodings vs = units.map .ok) :
    layout.decodings (layout.assemble units) = (layout.canonical vs).map some := by
  apply List.ext_getElem?
  intro j
  rw [canonical, List.getElem?_map, List.getElem?_zipWith]
  cases hg : layout.slots[j]? with
  | none => simp [decodings, List.getElem?_zipWith, hg]
  | some g =>
    have hj := (List.getElem?_eq_some_iff.mp hg).choose
    rw [length_slots] at hj
    have hv := List.getElem?_eq_getElem (by omega : j < vs.length)
    obtain ⟨unit, -, hback⟩ := getElem?_decodings_assemble hwf hlen hunits hg hv
    rw [hback, hv]
    rfl

end Layout

namespace Format

/-- What was packed has the length of the layout and is unpacked to one value for each
slot, the canonical form of the value packed there; for integer codes of up to 32 bits
that is the same integer. Values behind the last slot make no difference. -/
theorem unpack_pack (f : Format) {vs : List Value} {packed : Bytes}
    (h : f.layout.pack .strict vs = .ok packed) :
    packed.length = f.layout.byteLength ∧
      (∃ ws, f.layout.unpack .strict packed = .ok ws ∧ ws.length = f.layout.valueCount ∧
        ∀ (j : ℕ) (g : Group), f.layout.slots[j]? = some g →
          ∃ v, vs[j]? = some v ∧ ws[j]? = some (g.canonical v) ∧
            (g.code.kind = .signed ∨ g.code.kind = .unsigned → g.code.width < 8 →
              (g.canonical v).integer? = v.integer?)) ∧
      ∀ us : List Value, us.take f.layout.valueCount = vs.take f.layout.valueCount →
        f.layout.pack .strict us = .ok packed := by
  have hwf := f.wellFormed
  obtain ⟨hlen, units, hunits, rfl⟩ := Layout.pack_strict_eq_ok_iff.mp h
  have hlength := Layout.length_assemble (Layout.fits_of_encodings hwf hlen hunits)
  obtain ⟨ws, hws⟩ := Layout.exists_decodings_eq hwf.groups hlength.ge
  have hcount := Layout.length_of_decodings_eq hlength.ge hws
  refine ⟨hlength, ⟨ws, Layout.unpack_strict_of_le hlength.ge hws, hcount, ?_⟩, ?_⟩
  · intro j g hg
    obtain ⟨hmem, hpad⟩ := Layout.isPad_of_mem_slots (List.mem_of_getElem? hg)
    have hj : j < vs.length := by
      have hslot := (List.getElem?_eq_some_iff.mp hg).choose
      rw [Layout.length_slots] at hslot
      omega
    have hv := List.getElem?_eq_getElem hj
    obtain ⟨unit, hunit, hback⟩ := Layout.getElem?_decodings_assemble hwf hlen hunits hg hv
    rw [hws, List.getElem?_map, Option.map_eq_some_iff] at hback
    obtain ⟨w, hw, hcanonical⟩ := hback
    rw [Option.some.injEq] at hcanonical
    refine ⟨vs[j], hv, by rw [hw, hcanonical], ?_⟩
    intro hkind hwidth
    rw [← Group.canonical_unitLength (hwf.groups g hmem) hpad hunit]
    exact Code.integer?_canonical hunit hkind hwidth
  · intro us hus
    have husLen : f.layout.valueCount ≤ us.length := by
      have htake := congrArg List.length hus
      rw [List.length_take, List.length_take] at htake
      omega
    apply Layout.pack_strict_eq_ok_iff.mpr
    refine ⟨husLen, units, ?_, rfl⟩
    rw [← Layout.encodings_take, hus, Layout.encodings_take, hunits]

/-- A string that is too long for its slot comes back cut. -/
theorem unpack_pack_long_string :
    ∃ (f : Format) (ws : List Value), f.text = ">hQ4px" ∧
      f.layout.pack .strict [.uint 5, .int (-2), .bytes [65, 66, 67, 68, 69]] =
        .ok [0, 5, 255, 255, 255, 255, 255, 255, 255, 254, 3, 65, 66, 67, 0] ∧
      f.layout.unpack .strict [0, 5, 255, 255, 255, 255, 255, 255, 255, 254, 3, 65, 66, 67, 0] =
        .ok ws ∧
      ws[2]? = some (.bytes [65, 66, 67]) := by
  have hpack : Layout.pack
      [⟨1, .int16, .big, 2⟩, ⟨1, .uint64, .big, 8⟩, ⟨4, .pascalString, .big, 1⟩, ⟨1, .pad, .big, 1⟩]
      .strict [.uint 5, .int (-2), .bytes [65, 66, 67, 68, 69]] =
        .ok [0, 5, 255, 255, 255, 255, 255, 255, 255, 254, 3, 65, 66, 67, 0] := by decide
  obtain ⟨-, ⟨ws, hws, -, hvalues⟩, -⟩ := unpack_pack ⟨">hQ4px", _, by decide⟩ hpack
  obtain ⟨v, hv, hw, -⟩ := hvalues 2 ⟨4, .pascalString, .big, 1⟩ (by decide)
  obtain rfl := Option.some.inj hv
  exact ⟨⟨">hQ4px", _, by decide⟩, ws, rfl, hpack, hws, hw⟩

end Format
end BinaryRecord
