import BinaryRecord.Proofs.Layout.Buffer
import BinaryRecord.Proofs.Layout.Growth

/-!
# Packing into a buffer is all or nothing

A call that packs into a buffer puts all its bytes behind the offset, or leaves the buffer as it
was. The room is that from the offset to the end of the buffer, so there is none behind the end,
not even for an output without bytes.

## Main definitions

* `Layout.Patched`: bytes stand in a buffer from an offset on, and all else is as before.
-/

namespace BinaryRecord

namespace Layout
variable {layout : Layout} {mode : Mode} {offset : ℕ} {vs : List Value}
  {bytes bs buffer after after' : Bytes}

/-- Some bytes stand in a buffer from an offset on, and all else in it is as it was before. -/
structure Patched (offset : ℕ) (bytes buffer after : Bytes) : Prop where
  length_eq : after.length = buffer.length
  inside : ∀ p ∈ Set.Ico offset (offset + bytes.length), after[p]? = bytes[p - offset]?
  outside : ∀ p ∉ Set.Ico offset (offset + bytes.length), after[p]? = buffer[p]?

theorem patched_overwrite (h : offset + bytes.length ≤ buffer.length) :
    Patched offset bytes buffer (overwrite buffer offset bytes) where
  length_eq := length_overwrite h
  inside _ hp := getElem?_overwrite_of_mem h hp
  outside _ hp := getElem?_overwrite_of_notMem h hp

/-- The buffer before and the bytes determine the buffer afterwards. -/
theorem Patched.unique (h : Patched offset bytes buffer after)
    (h' : Patched offset bytes buffer after') : after = after' := by
  apply List.ext_getElem?
  intro p
  by_cases hp : p ∈ Set.Ico offset (offset + bytes.length)
  · rw [h.inside p hp, h'.inside p hp]
  · rw [h.outside p hp, h'.outside p hp]

/-- The bytes are read back from where they were put. -/
theorem Patched.window_eq (h : Patched offset bytes buffer after) :
    (after.drop offset).take bytes.length = bytes := by
  apply List.ext_getElem?
  intro i
  by_cases hi : i < bytes.length
  · have hp : offset + i ∈ Set.Ico offset (offset + bytes.length) := ⟨by omega, by omega⟩
    rw [List.getElem?_take_of_lt hi, List.getElem?_drop, h.inside _ hp, Nat.add_sub_cancel_left]
  · rw [List.getElem?_take_eq_none (by omega), List.getElem?_eq_none (by omega)]

/-- A call succeeds exactly if packing does and the bytes have room behind the offset, which is
then all that they change. -/
theorem packAt_eq_ok_iff_patched {n : ℕ} :
    layout.packAt mode offset vs buffer = (.ok n, after) ↔
      ∃ packed, layout.pack mode vs = .ok packed ∧ offset ≤ buffer.length ∧
        packed.length ≤ buffer.length - offset ∧ n = packed.length ∧
        Patched offset packed buffer after := by
  rw [packAt_eq_ok_iff]
  constructor
  · rintro ⟨packed, hpack, hroom, rfl, rfl⟩
    exact ⟨packed, hpack, by omega, by omega, rfl, patched_overwrite hroom⟩
  · rintro ⟨packed, hpack, hoffset, hlength, rfl, hpatched⟩
    have hroom : offset + packed.length ≤ buffer.length := by omega
    exact ⟨packed, hpack, hroom, rfl, (patched_overwrite hroom).unique hpatched⟩

/-- A call that fails leaves the buffer as it was, and reports what packing reports or that the
packed bytes have no room. -/
theorem packAt_eq_error_iff {e : Error} :
    layout.packAt mode offset vs buffer = (.error e, after) ↔
      after = buffer ∧ (layout.pack mode vs = .error e ∨
        ∃ packed, layout.pack mode vs = .ok packed ∧
          ¬ (offset ≤ buffer.length ∧ packed.length ≤ buffer.length - offset) ∧
          e = .noRoom packed.length (buffer.length - offset)) := by
  rw [packAt]
  cases layout.pack mode vs with
  | error e' => simp [and_comm, eq_comm]
  | ok packed =>
    by_cases hroom : offset ≤ buffer.length ∧ packed.length ≤ buffer.length - offset
    · simp [hroom]
    · simp [-not_and, hroom, and_comm, eq_comm]

/-- Where the bytes of the whole layout are there, unpacking sees them and nothing behind them. -/
theorem unpackAt_eq_unpack_window (h : layout.byteLength ≤ (bs.drop offset).length) (mode : Mode) :
    layout.unpackAt mode offset bs =
      layout.unpack mode ((bs.drop offset).take layout.byteLength) := by
  refine unpack_eq_of_isPrefix (List.take_prefix _ _) ?_ mode
  rw [List.length_take_of_le h]

end Layout

/-- Packing into a buffer is atomic and touches its window only. It succeeds exactly if packing
does and the bytes have room, the rest of the buffer staying as it is; it fails with the error of
packing, or for lack of room, and then the whole buffer stays as it is. Unpacking from an offset
sees the bytes from there on, and behind a strict call only those that it wrote. -/
theorem Format.packAt_atomic (f : Format) (mode : Mode) (offset : ℕ) :
    (∀ (vs : List Value) (buffer : Bytes),
      (∀ n after, f.layout.packAt mode offset vs buffer = (.ok n, after) ↔
        ∃ packed, f.layout.pack mode vs = .ok packed ∧ offset ≤ buffer.length ∧
          packed.length ≤ buffer.length - offset ∧ n = packed.length ∧
          Layout.Patched offset packed buffer after) ∧
      ∀ e after, f.layout.packAt mode offset vs buffer = (.error e, after) ↔
        after = buffer ∧ (f.layout.pack mode vs = .error e ∨
          ∃ packed, f.layout.pack mode vs = .ok packed ∧
            ¬ (offset ≤ buffer.length ∧ packed.length ≤ buffer.length - offset) ∧
            e = .noRoom packed.length (buffer.length - offset))) ∧
    (∀ bs : Bytes, f.layout.unpackAt mode offset bs =
      f.layout.unpack mode (bs.drop (min offset bs.length))) ∧
    ∀ (vs : List Value) (buffer : Bytes) (n : ℕ) (after : Bytes),
      f.layout.packAt .strict offset vs buffer = (.ok n, after) →
      ∀ other : Bytes, (other.drop offset).take n = (after.drop offset).take n →
        f.layout.unpackAt mode offset other = f.layout.unpackAt mode offset after := by
  refine ⟨?_, ?_, ?_⟩
  · intro vs buffer
    exact ⟨fun _ _ => Layout.packAt_eq_ok_iff_patched, fun _ _ => Layout.packAt_eq_error_iff⟩
  · intro bs
    have hdrop : bs.drop (min offset bs.length) = bs.drop offset := by
      rcases Nat.le_total offset bs.length with hle | hle
      · rw [Nat.min_eq_left hle]
      · rw [Nat.min_eq_right hle, List.drop_eq_nil_of_le hle, List.drop_length]
    rw [hdrop, Layout.unpackAt]
  · intro vs buffer n after hpacked other hsame
    obtain ⟨packed, hpack, -, -, rfl, hpatched⟩ := Layout.packAt_eq_ok_iff_patched.mp hpacked
    have hlength := Layout.length_of_pack_strict f.wellFormed hpack
    have hwindow := hpatched.window_eq
    have hroom : ∀ bs : Bytes, (bs.drop offset).take packed.length = packed →
        f.layout.byteLength ≤ (bs.drop offset).length := by
      intro bs hbs
      have hcount := congrArg List.length hbs
      rw [List.length_take] at hcount
      omega
    rw [Layout.unpackAt_eq_unpack_window (hroom other (hsame.trans hwindow)),
      Layout.unpackAt_eq_unpack_window (hroom after hwindow), ← hlength, hsame]

/-- An output without bytes has room at the end of the buffer but not behind it, and a part of
the values can have room where the whole would not. -/
theorem Format.packAt_atomic_end :
    ∃ f : Format, f.text = "<BH" ∧
      f.layout.packAt .loose 2 [] [1, 2] = (.ok 0, [1, 2]) ∧
      f.layout.packAt .loose 3 [] [1, 2] = (.error (.noRoom 0 0), [1, 2]) ∧
      f.layout.packAt .loose 1 [.uint 7] [1, 2] = (.ok 1, [1, 7]) ∧
      f.layout.packAt .loose 1 [.uint 7, .uint 8] [1, 2] = (.error (.noRoom 3 1), [1, 2]) ∧
      f.layout.packAt .strict 1 [.uint 7, .uint 8] [1, 2, 3, 4, 5] = (.ok 3, [1, 7, 8, 0, 5]) ∧
      f.layout.unpackAt .strict 1 [9, 7, 8, 0] =
        f.layout.unpackAt .strict 1 [1, 7, 8, 0, 5] := by
  obtain ⟨layout, hlayout⟩ : ∃ layout : Layout,
      layout = [⟨1, .uint8, .little, 1⟩, ⟨1, .uint16, .little, 2⟩] := ⟨_, rfl⟩
  have hparse : Layout.parse "<BH" = .ok layout := by
    rw [hlayout]
    decide
  have hnone : layout.pack .loose [] = .ok [] := by
    rw [hlayout]
    decide
  have hpart : layout.pack .loose [.uint 7] = .ok [7] := by
    rw [hlayout]
    decide
  have hwhole : layout.pack .loose [.uint 7, .uint 8] = .ok [7, 8, 0] := by
    rw [hlayout]
    decide
  have hput : layout.packAt .strict 1 [.uint 7, .uint 8] [1, 2, 3, 4, 5] =
      (.ok 3, [1, 7, 8, 0, 5]) := by
    rw [hlayout]
    decide
  obtain ⟨hend, -, -⟩ := packAt_atomic ⟨"<BH", layout, hparse⟩ .loose 2
  obtain ⟨hbehind, -, -⟩ := packAt_atomic ⟨"<BH", layout, hparse⟩ .loose 3
  obtain ⟨hinside, -, -⟩ := packAt_atomic ⟨"<BH", layout, hparse⟩ .loose 1
  obtain ⟨-, -, hwindow⟩ := packAt_atomic ⟨"<BH", layout, hparse⟩ .strict 1
  refine ⟨⟨"<BH", layout, hparse⟩, rfl, ?_, ?_, ?_, ?_, hput, ?_⟩
  · exact ((hend [] [1, 2]).1 0 [1, 2]).mpr
      ⟨[], hnone, by decide, by decide, rfl, Layout.patched_overwrite (by decide)⟩
  · exact ((hbehind [] [1, 2]).2 (.noRoom 0 0) [1, 2]).mpr
      ⟨rfl, .inr ⟨[], hnone, by decide, rfl⟩⟩
  · exact ((hinside [.uint 7] [1, 2]).1 1 [1, 7]).mpr
      ⟨[7], hpart, by decide, by decide, rfl, Layout.patched_overwrite (by decide)⟩
  · exact ((hinside [.uint 7, .uint 8] [1, 2]).2 (.noRoom 3 1) [1, 2]).mpr
      ⟨rfl, .inr ⟨[7, 8, 0], hwhole, by decide, rfl⟩⟩
  · exact hwindow [.uint 7, .uint 8] [1, 2, 3, 4, 5] 3 [1, 7, 8, 0, 5] hput [9, 7, 8, 0] rfl

end BinaryRecord
