import BinaryRecord.Proofs.Checked.Pack
import BinaryRecord.Proofs.Checked.Unpack

/-!
# No operation traps

Reading a format does not trap, whatever the text is, and the limits that it keeps are all that
the other operations need. On a layout that was read they do not trap either, whatever else they
are given, and give what they give without checks.
-/

namespace BinaryRecord.Checked

/-- No operation traps. Reading a format gives what it gives without checks, and so do the totals
and the operations of each layout that was read, for all values, bytes, offsets and buffers in
memory. The groups have counts from one to `2 ^ 24` and the sizes of their codes, units that are
not empty and divide their group, and no more slots than bytes. -/
theorem operations_eq_lift (text : String) :
    parse text = lift (Layout.parse text) ∧
    ∀ layout, Layout.parse text = .ok layout →
      (∀ g ∈ layout, 1 ≤ g.count ∧ g.count ≤ 2 ^ 24 ∧ g.size = g.code.width ∧
        g.unitLength ≠ 0 ∧ g.unitLength ∣ g.byteLength) ∧
      byteLength layout = .ok layout.byteLength ∧ layout.byteLength ≤ byteLimit ∧
      valueCount layout = .ok layout.valueCount ∧ layout.valueCount = layout.slots.length ∧
      layout.slots.length ≤ layout.byteLength ∧
      ∀ (mode : Mode) (vs : List Value) (bs : Bytes),
        outputBound 0 vs.length layout = .ok (layout.packedLength vs.length) ∧
        pack layout mode vs = lift (layout.pack mode vs) ∧
        unpack layout mode bs = lift (layout.unpack mode bs) ∧
        (∀ ws, layout.unpack mode bs = .ok ws → ws.length ≤ bs.length) ∧
        ∀ offset : ℕ,
          unpackAt layout mode offset bs = lift (layout.unpackAt mode offset bs) ∧
          ∀ buffer : Bytes, buffer.length < wordLimit →
            packAt layout mode offset vs buffer =
              lift ((layout.packAt mode offset vs buffer).1.map fun n =>
                (n, (layout.packAt mode offset vs buffer).2)) := by
  refine ⟨parse_eq text, fun layout hparse => ?_⟩
  have hwf := Layout.wellFormed_of_parse hparse
  have hcount := (Layout.length_slots layout).symm
  have hle := Layout.valueCount_le_byteLength hwf.groups
  refine ⟨?_, byteLength_eq hwf, hwf.byteLength_le, valueCount_eq hwf, hcount, hcount ▸ hle, ?_⟩
  · intro g hmem
    have hg := hwf.groups g hmem
    exact ⟨hg.one_le_count, hg.count_le, hg.size_eq, Nat.ne_of_gt hg.unitLength_pos,
      g.units, by rw [Nat.mul_comm, g.units_mul_unitLength]⟩
  · intro mode vs bs
    have hbound := outputBound_eq hwf.groups 0 vs.length (by
      rw [Nat.zero_add]
      exact byteLength_lt hwf)
    rw [Nat.zero_add] at hbound
    exact ⟨hbound, pack_eq hwf mode vs, unpack_eq hwf mode bs,
      fun ws => Layout.length_of_unpack_le hwf, fun offset =>
        ⟨unpack_eq hwf mode (bs.drop offset), fun buffer => packAt_eq hwf mode offset vs⟩⟩

/-- A string of length zero, which no format describes, has no bytes to be cut into pieces. -/
example : unpack [⟨0, .fixedString, .little, 1⟩] .loose [] = .error (.trap .emptyPiece) := by
  decide

end BinaryRecord.Checked
