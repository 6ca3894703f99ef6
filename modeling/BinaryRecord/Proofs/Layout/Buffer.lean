import Mathlib.Order.Interval.Set.Basic
import BinaryRecord.Proofs.Layout.RoundTrip

/-!
# Packing into a part of a buffer

Packing into a buffer replaces the bytes behind an offset, if there is room for them, and no
others. What was packed is unpacked from that offset, whatever else the buffer holds.
-/

namespace BinaryRecord.Layout
variable {layout : Layout} {mode : Mode} {offset p : ℕ} {vs : List Value}
  {buffer bytes packed : Bytes}

theorem length_overwrite (h : offset + bytes.length ≤ buffer.length) :
    (overwrite buffer offset bytes).length = buffer.length := by
  simp only [overwrite, List.length_append, List.length_take, List.length_drop]
  omega

/-- In the part that is replaced stand the new bytes. -/
theorem getElem?_overwrite_of_mem (h : offset + bytes.length ≤ buffer.length)
    (hp : p ∈ Set.Ico offset (offset + bytes.length)) :
    (overwrite buffer offset bytes)[p]? = bytes[p - offset]? := by
  obtain ⟨hlow, hhigh⟩ := hp
  have hfront : (buffer.take offset).length = offset := List.length_take_of_le (by omega)
  rw [overwrite, List.append_assoc, List.getElem?_append_right (by omega), hfront,
    List.getElem?_append_left (by omega)]

/-- Outside the part that is replaced nothing changes. -/
theorem getElem?_overwrite_of_notMem (h : offset + bytes.length ≤ buffer.length)
    (hp : p ∉ Set.Ico offset (offset + bytes.length)) :
    (overwrite buffer offset bytes)[p]? = buffer[p]? := by
  have hfront : (buffer.take offset).length = offset := List.length_take_of_le (by omega)
  rw [Set.mem_Ico, not_and_or, Nat.not_le, Nat.not_lt] at hp
  rw [overwrite, List.append_assoc]
  rcases hp with hbefore | hbehind
  · rw [List.getElem?_append_left (by omega), List.getElem?_take_of_lt hbefore]
  · have hplace : offset + bytes.length + (p - offset - bytes.length) = p := by omega
    rw [List.getElem?_append_right (by omega), hfront, List.getElem?_append_right (by omega),
      List.getElem?_drop, hplace]

/-- Packing into a buffer succeeds exactly if the packed bytes have room behind the offset, and
then it puts them there. -/
theorem packAt_eq_ok_iff {n : ℕ} {after : Bytes} :
    layout.packAt mode offset vs buffer = (.ok n, after) ↔
      ∃ packed, layout.pack mode vs = .ok packed ∧ offset + packed.length ≤ buffer.length ∧
        packed.length = n ∧ overwrite buffer offset packed = after := by
  rw [packAt]
  cases layout.pack mode vs with
  | error e => simp
  | ok packed =>
    by_cases hroom : offset + packed.length ≤ buffer.length
    · have hif : offset ≤ buffer.length ∧ packed.length ≤ buffer.length - offset := by omega
      simp [hif, hroom]
    · have hif : ¬ (offset ≤ buffer.length ∧ packed.length ≤ buffer.length - offset) := by omega
      simp [hif, hroom]

/-- Where packed bytes stand, unpacking gives the canonical forms of the values. -/
theorem unpackAt_of_pack (hwf : layout.WellFormed) (hpack : layout.pack .strict vs = .ok packed)
    (hslice : (buffer.drop offset).take packed.length = packed) :
    layout.unpackAt .strict offset buffer = .ok (layout.canonical vs) := by
  have hlength := length_of_pack_strict hwf hpack
  obtain ⟨hlen, units, hunits, rfl⟩ := pack_strict_eq_ok_iff.mp hpack
  have hroom : layout.byteLength ≤ (buffer.drop offset).length := by
    have hcount := congrArg List.length hslice
    rw [List.length_take] at hcount
    omega
  have hread : layout.decodings (buffer.drop offset) = (layout.canonical vs).map some := by
    rw [← decodings_assemble hwf hlen hunits, ← hslice, decodings, decodings,
      dissect_take hlength.ge]
  exact unpack_strict_of_le hroom hread

end BinaryRecord.Layout
