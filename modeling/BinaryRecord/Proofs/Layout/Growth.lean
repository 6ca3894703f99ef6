import BinaryRecord.Proofs.Layout.Loose

/-!
# Growing input

Loose operation can be given its input piece by piece. What comes out for a part of the values or
of the bytes stays at the front of what comes out for more of them, and once there is enough for
the whole layout nothing more comes.
-/

namespace BinaryRecord

namespace Layout
variable {layout : Layout} {vs vs' : List Value} {bs bs' : Bytes}

/-! ## Packing -/

/-- Values behind the last slot make no difference to how the slots are stored. -/
theorem encodings_eq_of_isPrefix (h : vs <+: vs') (hcovered : layout.valueCount ≤ vs.length) :
    layout.encodings vs' = layout.encodings vs := by
  obtain ⟨more, rfl⟩ := h
  rw [← encodings_take, List.take_append_of_le_length hcovered, encodings_take]

/-- The groups that the values cover are stored from more values as they are from these, before
whatever the further values give. -/
theorem pack_loose_of_isPrefix (h : vs <+: vs') :
    ∃ further : Except Error Bytes, layout.pack .loose vs' =
      layout.pack .loose vs >>= fun packed => further.map (packed ++ ·) := by
  obtain ⟨k, hk⟩ : ∃ k, k = layout.covered Group.valueCount vs.length := ⟨_, rfl⟩
  have hcovered : valueCount (layout.take k) ≤ vs.length := by
    rw [hk]
    exact valueCount_take_covered_le layout vs.length
  have hsplit := packScan_append (hcovered.trans h.length_le) (layout.drop k)
  rw [List.take_append_drop, encodings_eq_of_isPrefix h hcovered] at hsplit
  rw [pack_loose, hsplit, pack_loose_eq_pack_strict_take, ← hk, pack_strict_of_le hcovered]
  refine ⟨(packScan (layout.drop k) (vs'.drop (valueCount (layout.take k)))).map (·.1), ?_⟩
  cases Except.all (encodings (layout.take k) vs) with
  | error e => rfl
  | ok units =>
    cases packScan (layout.drop k) (vs'.drop (valueCount (layout.take k))) <;> rfl

/-- Once there are values for all slots, further values change nothing. -/
theorem pack_eq_of_isPrefix (h : vs <+: vs') (hcovered : layout.valueCount ≤ vs.length)
    (mode : Mode) : layout.pack mode vs' = layout.pack mode vs := by
  have hcovered' := hcovered.trans h.length_le
  have hstrict : layout.pack .strict vs' = layout.pack .strict vs := by
    rw [pack_strict_of_le hcovered', pack_strict_of_le hcovered,
      encodings_eq_of_isPrefix h hcovered]
  cases mode with
  | strict => exact hstrict
  | loose => rw [← pack_strict_eq_pack_loose hcovered', hstrict, pack_strict_eq_pack_loose hcovered]

/-! ## Unpacking -/

/-- Bytes behind the layout make no difference to how its units are read. -/
theorem decodings_eq_of_isPrefix (h : bs <+: bs') (hcovered : layout.byteLength ≤ bs.length) :
    layout.decodings bs' = layout.decodings bs := by
  obtain ⟨more, rfl⟩ := h
  have hdissect : layout.dissect (bs ++ more) = layout.dissect bs := by
    rw [← dissect_take hcovered, List.take_left]
  rw [decodings, decodings, hdissect]

/-- The values that are read from some bytes come first when more bytes are read. -/
theorem unpackScan_isPrefix (h : bs <+: bs') :
    (layout.unpackScan bs).1 <+: (layout.unpackScan bs').1 := by
  obtain ⟨k, hk⟩ : ∃ k, k = layout.covered Group.byteLength bs.length := ⟨_, rfl⟩
  have hcovered : byteLength (layout.take k) ≤ bs.length := by
    rw [hk]
    exact byteLength_take_covered_le layout bs.length
  have hsplit := unpackScan_append (hcovered.trans h.length_le) (layout.drop k)
  rw [List.take_append_drop, decodings_eq_of_isPrefix h hcovered] at hsplit
  rw [hsplit, unpackScan_fst, ← hk]
  exact List.prefix_append _ _

/-- Once there are bytes for the whole layout, further bytes change nothing. -/
theorem unpack_eq_of_isPrefix (h : bs <+: bs') (hcovered : layout.byteLength ≤ bs.length)
    (mode : Mode) : layout.unpack mode bs' = layout.unpack mode bs := by
  have hcovered' := hcovered.trans h.length_le
  have hloose : layout.unpack .loose bs' = layout.unpack .loose bs := by
    rw [unpack_loose, unpack_loose, unpackScan_of_le hcovered', unpackScan_of_le hcovered,
      decodings_eq_of_isPrefix h hcovered]
  cases mode with
  | loose => exact hloose
  | strict =>
    rw [unpack_strict_eq_ite, unpack_strict_eq_ite, if_pos hcovered', if_pos hcovered, hloose]

end Layout

/-- Loose results only grow with their input: for a front of some values or bytes they are the
front of the result for all of them. Once the input covers the layout, what follows changes
nothing in either mode. -/
theorem Format.loose_mono (f : Format) :
    (∀ vs vs' : List Value, vs <+: vs' →
      (∀ packed', f.layout.pack .loose vs' = .ok packed' →
        ∃ packed, f.layout.pack .loose vs = .ok packed ∧ packed <+: packed') ∧
      (f.layout.valueCount ≤ vs.length → ∀ mode, f.layout.pack mode vs' = f.layout.pack mode vs)) ∧
    ∀ bs bs' : Bytes, bs <+: bs' →
      (∃ ws ws', f.layout.unpack .loose bs = .ok ws ∧ f.layout.unpack .loose bs' = .ok ws' ∧
        ws <+: ws') ∧
      (f.layout.byteLength ≤ bs.length →
        ∀ mode, f.layout.unpack mode bs' = f.layout.unpack mode bs) := by
  constructor
  · intro vs vs' h
    refine ⟨?_, fun hcovered mode => Layout.pack_eq_of_isPrefix h hcovered mode⟩
    intro packed' hpack'
    have hgrown : ∃ further : Except Error Bytes, f.layout.pack .loose vs' =
        f.layout.pack .loose vs >>= fun packed => further.map (packed ++ ·) :=
      Layout.pack_loose_of_isPrefix h
    obtain ⟨further, hgrown⟩ := hgrown
    rw [hgrown, Except.bind_eq_ok_iff] at hpack'
    obtain ⟨packed, hpack, hmap⟩ := hpack'
    obtain ⟨rest, -, rfl⟩ := Except.map_eq_ok_iff.mp hmap
    exact ⟨packed, hpack, List.prefix_append _ _⟩
  · intro bs bs' h
    refine ⟨?_, fun hcovered mode => Layout.unpack_eq_of_isPrefix h hcovered mode⟩
    exact ⟨_, _, Layout.unpack_loose f.layout bs, Layout.unpack_loose f.layout bs',
      Layout.unpackScan_isPrefix h⟩

/-- A pad before the group that lacks a value comes out, and stays where it is when the value is
there. -/
theorem Format.loose_mono_pad :
    ∃ (f : Format) (packed : Bytes) (ws ws' : List Value), f.text = "<BxH" ∧
      f.layout.pack .loose [.uint 2, .uint 4] = .ok [2, 0, 4, 0] ∧
      f.layout.pack .loose [.uint 2] = .ok packed ∧ packed <+: [2, 0, 4, 0] ∧ packed.length = 2 ∧
      f.layout.unpack .loose [2, 9, 4] = .ok ws ∧
      f.layout.unpack .loose [2, 9, 4, 0, 7] = .ok ws' ∧ ws <+: ws' ∧
      f.layout.unpack .strict [2, 9, 4, 0, 7] = f.layout.unpack .strict [2, 9, 4, 0] := by
  obtain ⟨layout, hlayout⟩ : ∃ layout : Layout, layout = [⟨1, .uint8, .little, 1⟩,
      ⟨1, .pad, .little, 1⟩, ⟨1, .uint16, .little, 2⟩] := ⟨_, rfl⟩
  have hparse : Layout.parse "<BxH" = .ok layout := by
    rw [hlayout]
    decide
  have hpack : layout.pack .loose [.uint 2, .uint 4] = .ok [2, 0, 4, 0] := by
    rw [hlayout]
    decide
  have hfront : layout.pack .loose [.uint 2] = .ok [2, 0] := by
    rw [hlayout]
    decide
  have hlength : layout.byteLength ≤ 4 := by
    rw [hlayout]
    decide
  obtain ⟨hvalues, hbytes⟩ := loose_mono ⟨"<BxH", layout, hparse⟩
  obtain ⟨packed, hpacked, hprefix⟩ :=
    (hvalues [.uint 2] [.uint 2, .uint 4] ⟨[.uint 4], rfl⟩).1 _ hpack
  obtain rfl : packed = [2, 0] := Except.ok.inj (hpacked.symm.trans hfront)
  obtain ⟨ws, ws', hread, hread', hgrown⟩ := (hbytes [2, 9, 4] [2, 9, 4, 0, 7] ⟨[0, 7], rfl⟩).1
  have hsame := (hbytes [2, 9, 4, 0] [2, 9, 4, 0, 7] ⟨[7], rfl⟩).2 hlength .strict
  exact ⟨⟨"<BxH", layout, hparse⟩, [2, 0], ws, ws', rfl, hpack, hpacked, hprefix, rfl, hread,
    hread', hgrown, hsame⟩

end BinaryRecord
