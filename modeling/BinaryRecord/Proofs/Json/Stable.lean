import BinaryRecord.Proofs.Floating.Integer
import BinaryRecord.Proofs.Json.Items
import BinaryRecord.Proofs.Layout.NormalForm
import BinaryRecord.Proofs.Layout.RoundTrip

/-!
# From JSON to bytes and back

Every value that is read from JSON is finite, and a finite number that the code's format
cannot hold is refused, so only finite numbers are packed. What was packed is therefore
unpacked to values that survive their JSON form, and these are packed to the same bytes. In
loose operation the bytes end where the values end, so the way back stops at the same group.
-/

namespace BinaryRecord

/-! ## Finite values -/

namespace Code
variable {c : Code}

theorem isFinite_of_readInteger? {n : JsonNumber} {v : Value} (h : c.readInteger? n = some v) :
    v.isFinite = true := by
  unfold readInteger? at h
  split at h
  · obtain rfl := Option.some.inj h
    cases c.isSigned <;> rfl
  · obtain rfl := Option.some.inj h
    rfl
  · obtain rfl := Option.some.inj h
    rfl
  · cases h

/-- Whatever is read from JSON is finite. -/
theorem isFinite_of_readItem {item : Json} {v : Value} (h : c.readItem item = .ok v) :
    v.isFinite = true := by
  cases hkind : c.kind with
  | pad => simp [readItem, hkind] at h
  | float =>
    obtain ⟨n, rfl, rfl⟩ := (readItem_float_iff hkind).mp h
    exact n.isFinite_toBinary64
  | signed | unsigned =>
    obtain ⟨n, rfl, hn⟩ := (readItem_integer_iff (by simp [hkind])).mp h
    exact isFinite_of_readInteger? hn
  | fixedString | pascalString =>
    simp only [readItem, hkind] at h
    split at h
    · obtain rfl := Except.ok.inj h
      rfl
    · obtain ⟨data, -, rfl⟩ := Except.map_eq_ok_iff.mp h
      rfl
    · cases h

/-- A number that was stored comes back finite if it was. -/
theorem isFinite_canonical {count n : ℕ} {o : ByteOrder} {v : Value} {unit : Bytes}
    (hpad : c.isPad = false) (h : c.encode n o v = .ok unit) (hfinite : v.isFinite = true) :
    (c.canonical count v).isFinite = true := by
  cases v with
  | int n | uint n =>
    cases hsigned : c.isSigned <;> simp [canonical, integer, hsigned, Value.isFinite]
  | bytes data => rfl
  | float x =>
    unfold encode at h
    cases hkind : c.kind <;> simp only [hkind] at h
    case pad => simp [isPad_iff.mpr hkind] at hpad
    case float =>
      obtain ⟨w, hw, -⟩ := Except.map_eq_ok_iff.mp h
      obtain ⟨y, hy, hfits, -⟩ := floatWord_eq_ok_iff.mp hw
      obtain rfl := Value.float.inj hy
      have hnarrow : c.width = 4 → x.narrow.isFinite = true := by
        intro h4
        by_contra hover
        exact hfits ⟨h4, hfinite, by simpa using hover⟩
      by_cases h4 : c.width = 4
      · simp [canonical, h4, Value.isFinite, Binary32.isFinite_widen, hnarrow]
      · simpa [canonical, h4, Value.isFinite] using hfinite
    all_goals simp [integerWord, stringData, Value.integer?, Value.bytes?, Except.map] at h

end Code

namespace Layout
variable {layout : Layout} {items : List Json} {vs : List Value} {packed : Bytes} {mode : Mode}

theorem isFinite_of_readItems (h : layout.readItems items = .ok vs) :
    ∀ v ∈ vs, v.isFinite = true := by
  intro v hmem
  obtain ⟨j, hj⟩ := List.getElem?_of_mem hmem
  obtain ⟨g, item, -, -, hitem⟩ := exists_item_of_readItems h hj
  exact Code.isFinite_of_readItem hitem

/-- Finite values that were stored come back finite. -/
theorem isFinite_canonical {units : List Bytes} (hunits : layout.encodings vs = units.map .ok)
    (hfinite : ∀ v ∈ vs, v.isFinite = true) :
    ∀ w ∈ layout.canonical vs, w.isFinite = true := by
  intro w hmem
  obtain ⟨j, hj⟩ := List.getElem?_of_mem hmem
  obtain ⟨g, v, hg, hv, rfl⟩ := List.getElem?_zipWith_eq_some.mp hj
  obtain ⟨unit, -, hstored⟩ := exists_unit_of_encodings hunits hg hv
  obtain ⟨-, hpad⟩ := isPad_of_mem_slots (List.mem_of_getElem? hg)
  exact Code.isFinite_canonical hpad hstored (hfinite v (List.mem_of_getElem? hv))

/-! ## The way back -/

/-- The bytes of the first groups cover just these. -/
theorem covered_byteLength_take (hwf : layout.WellFormed) {k : ℕ} (hk : k ≤ layout.length) :
    layout.covered Group.byteLength (byteLength (layout.take k)) = k := by
  have hge : k ≤ layout.covered Group.byteLength (byteLength (layout.take k)) := by
    rw [le_covered_iff hk, byteLength_eq_sum]
  by_contra hne
  have hlt : k < layout.covered Group.byteLength (byteLength (layout.take k)) := by omega
  have hk' : k < layout.length := Nat.lt_of_lt_of_le hlt (covered_le_length _ _)
  have hgroup := hwf.groups layout[k] (List.getElem_mem hk')
  have hpos : 0 < layout[k].byteLength := by
    rw [← Group.units_mul_unitLength]
    exact Nat.mul_pos hgroup.units_pos hgroup.unitLength_pos
  rw [lt_covered_iff hk', List.take_succ_eq_append_getElem hk', byteLength_append] at hlt
  simp only [byteLength] at hlt
  omega

/-- Where the values end there is no pad that would be packed behind them. -/
theorem takeWhile_isPad_drop_covered (layout : Layout) (n : ℕ) :
    (layout.drop (layout.covered Group.valueCount n)).takeWhile (·.code.isPad) = [] := by
  cases hdrop : layout.drop (layout.covered Group.valueCount n) with
  | nil => rfl
  | cons g rest =>
    have hfirst : layout[layout.covered Group.valueCount n]? = some g := by
      rw [← List.head?_drop, hdrop, List.head?_cons]
    exact List.takeWhile_cons_of_neg (by simp [isPad_of_getElem?_covered hfirst])

/-- What was packed loosely is unpacked to values that are packed to the same bytes. If the
values were finite, so are those that come back. -/
theorem exists_unpack_pack_loose (hwf : layout.WellFormed)
    (hpack : layout.pack .loose vs = .ok packed) :
    ∃ ws, layout.unpack .loose packed = .ok ws ∧ layout.pack .loose ws = .ok packed ∧
      ((∀ v ∈ vs, v.isFinite = true) → ∀ w ∈ ws, w.isFinite = true) := by
  obtain ⟨k, hk⟩ : ∃ k, k = layout.covered Group.valueCount vs.length := ⟨_, rfl⟩
  have hle : k ≤ layout.length := hk ▸ covered_le_length layout vs.length
  rw [pack_loose_eq_pack_strict_take, ← hk] at hpack
  obtain ⟨hlen, units, hunits, rfl⟩ := pack_strict_eq_ok_iff.mp hpack
  have hlength := length_assemble (fits_of_encodings (hwf.take k) hlen hunits)
  have hback := decodings_assemble (hwf.take k) hlen hunits
  refine ⟨canonical (layout.take k) vs, ?_, ?_, isFinite_canonical hunits⟩
  · rw [unpack_loose_eq_unpack_strict_take, hlength, covered_byteLength_take hwf hle]
    exact unpack_strict_of_le hlength.ge hback
  · -- The groups behind those covered start with no pad, so nothing is added to the bytes.
    rw [pack_loose_of_decodings_take hwf hlength.ge hback, repacked, ← hlength, List.take_length,
      normalize_pack (hwf.take k) hpack, hk, takeWhile_isPad_drop_covered]
    simp [byteLength, fill]

/-- Bytes for all groups are unpacked to values for all slots. -/
theorem length_of_unpack_loose (hwf : layout.WellFormed) (hlen : layout.byteLength ≤ packed.length)
    (h : layout.unpack .loose packed = .ok vs) : vs.length = layout.valueCount := by
  rw [unpack_loose] at h
  obtain rfl := Except.ok.inj h
  rw [byteLength_eq_sum] at hlen
  rw [length_unpackScan_fst hwf, covered_of_sum_le hlen, List.take_length]

/-- In each mode what was packed is unpacked to values that are packed to the same bytes. -/
theorem exists_unpack_pack (hwf : layout.WellFormed) (hpack : layout.pack mode vs = .ok packed) :
    ∃ ws, layout.unpack mode packed = .ok ws ∧ layout.pack mode ws = .ok packed ∧
      ((∀ v ∈ vs, v.isFinite = true) → ∀ w ∈ ws, w.isFinite = true) := by
  obtain ⟨ws, hunpack, hrepack, hfinite⟩ := exists_unpack_pack_loose hwf (pack_loose_of_pack hpack)
  cases mode with
  | loose => exact ⟨ws, hunpack, hrepack, hfinite⟩
  | strict =>
    have hlen := (length_of_pack_strict hwf hpack).ge
    have hcount := length_of_unpack_loose hwf hlen hunpack
    refine ⟨ws, ?_, ?_, hfinite⟩
    · rw [unpack_strict_eq_ite, if_pos hlen, hunpack]
    · rw [pack_strict_eq_pack_loose hcount.ge, hrepack]

end Layout

namespace Format

/-- Bytes that were packed from JSON items are found again on the way through JSON: they are
unpacked, the JSON forms of the values are read for the same slots, and these are packed to
the same bytes. Only finite numbers are packed and come back. -/
theorem pack_of_readItems (f : Format) {mode : Mode} {items : List Json} {vs : List Value}
    {packed : Bytes} (hread : f.layout.readItems items = .ok vs)
    (hpack : f.layout.pack mode vs = .ok packed) :
    (∀ v ∈ vs, v.isFinite = true) ∧
    ∃ ws, f.layout.unpack mode packed = .ok ws ∧ (∀ w ∈ ws, w.isFinite = true) ∧
      f.layout.readItems (ws.map (·.toJsonAs false)) = .ok ws ∧
      f.layout.pack mode ws = .ok packed := by
  have hfinite := Layout.isFinite_of_readItems hread
  obtain ⟨ws, hunpack, hrepack, hback⟩ := Layout.exists_unpack_pack f.wellFormed hpack
  have hjson := Layout.readItems_toJsonAs f.wellFormed false hunpack (by simp) (hback hfinite)
  exact ⟨hfinite, ws, hunpack, hback hfinite, hjson, hrepack⟩

/-- An integer that wraps, a text that is cut, and a group that is not reached. -/
theorem pack_of_readItems_wrapped :
    ∃ (f : Format) (vs ws : List Value), f.text = ">q2sxdH" ∧
      f.layout.readItems [.number (.natural 0xFFFFFFFFFFFFFFFE), .string "abc"] = .ok vs ∧
      f.layout.pack .loose vs = .ok [255, 255, 255, 255, 255, 255, 255, 254, 97, 98, 0] ∧
      f.layout.unpack .loose [255, 255, 255, 255, 255, 255, 255, 254, 97, 98, 0] = .ok ws ∧
      f.layout.readItems (ws.map (·.toJsonAs false)) = .ok ws ∧
      f.layout.pack .loose ws = .ok [255, 255, 255, 255, 255, 255, 255, 254, 97, 98, 0] := by
  have hparse : Layout.parse ">q2sxdH" = .ok
      [⟨1, .int64, .big, 8⟩, ⟨2, .fixedString, .big, 1⟩, ⟨1, .pad, .big, 1⟩,
        ⟨1, .float64, .big, 8⟩, ⟨1, .uint16, .big, 2⟩] := by decide
  have hread : Layout.readItems
      [⟨1, .int64, .big, 8⟩, ⟨2, .fixedString, .big, 1⟩, ⟨1, .pad, .big, 1⟩,
        ⟨1, .float64, .big, 8⟩, ⟨1, .uint16, .big, 2⟩]
      [.number (.natural 0xFFFFFFFFFFFFFFFE), .string "abc"] =
        .ok [.uint 0xFFFFFFFFFFFFFFFE, .bytes [97, 98, 99]] := by rfl
  have hpack : Layout.pack
      [⟨1, .int64, .big, 8⟩, ⟨2, .fixedString, .big, 1⟩, ⟨1, .pad, .big, 1⟩,
        ⟨1, .float64, .big, 8⟩, ⟨1, .uint16, .big, 2⟩]
      .loose [.uint 0xFFFFFFFFFFFFFFFE, .bytes [97, 98, 99]] =
        .ok [255, 255, 255, 255, 255, 255, 255, 254, 97, 98, 0] := by decide
  obtain ⟨-, ws, hunpack, -, hjson, hrepack⟩ :=
    pack_of_readItems ⟨">q2sxdH", _, hparse⟩ hread hpack
  exact ⟨⟨">q2sxdH", _, hparse⟩, _, ws, rfl, hread, hpack, hunpack, hjson, hrepack⟩

end Format
end BinaryRecord
