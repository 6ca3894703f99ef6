import BinaryRecord.Layout.Unpack
import BinaryRecord.Proofs.Checked.Group

/-!
# Unpacking with checks

Unpacking keeps a cursor into the bytes. Along a layout that was read it does not pass their end,
so what is left is a difference of words and the bytes of the next group are a part of those given.

## Main definitions

* `Checked.unpack`, `Checked.unpackAt`: the operations.
-/

namespace BinaryRecord.Checked
variable {layout whole : Layout} {bs : Bytes}

/-! ## Programs -/

/-- Unpacks the groups behind a cursor, when `read` was read. This traps as soon as the cursor is
behind the end of the bytes. A lack of bytes is reported with the totals of the whole layout. -/
def unpackLoop (whole : Layout) (mode : Mode) (bs : Bytes) (cursor : ℕ) (read : List Value) :
    Layout → Run (List Value)
  | [] => .ok read
  | g :: layout => do
    let length ← groupLength g
    let left ← sub bs.length cursor
    if left < length then
      if mode.isStrict then do
        let needed ← byteLength whole
        .error (.fail (.tooFewBytes needed bs.length))
      else return read
    else
      let stop ← add cursor length
      let vs ← decodeAll g (← slice bs cursor stop)
      unpackLoop whole mode bs stop (read ++ vs) layout

/-- Unpacks bytes. The number of values is found first, as the room that they may take. -/
def unpack (layout : Layout) (mode : Mode) (bs : Bytes) : Run (List Value) := do
  let _ ← valueCount layout
  unpackLoop layout mode bs 0 [] layout

/-- Unpacks the bytes from an offset on. -/
def unpackAt (layout : Layout) (mode : Mode) (offset : ℕ) (bs : Bytes) : Run (List Value) :=
  unpack layout mode (bs.drop offset)

/-! ## No traps -/

/-- The cursor is not behind the end of the bytes, and neither is the end of the next group that
is read. -/
theorem unpackLoop_eq (hwhole : whole.WellFormed) (hwf : ∀ g ∈ layout, g.WellFormed)
    (mode : Mode) {cursor : ℕ} (hcursor : cursor ≤ bs.length)
    (hroom : cursor + layout.byteLength < wordLimit) (read : List Value) :
    unpackLoop whole mode bs cursor read layout = lift
      (if mode.isStrict && (layout.unpackScan (bs.drop cursor)).2.isSome then
        .error (.tooFewBytes whole.byteLength bs.length)
      else .ok (read ++ (layout.unpackScan (bs.drop cursor)).1)) := by
  -- The bytes of the groups to come keep the cursor below the limit of a word.
  induction layout generalizing cursor read with
  | nil => simp [unpackLoop, Layout.unpackScan]
  | cons g layout ih =>
    obtain ⟨hg, hrest⟩ := List.forall_mem_cons.mp hwf
    rw [Layout.byteLength] at hroom
    rw [unpackLoop, Layout.unpackScan, groupLength_eq hg.count_le hg.size_eq, ok_bind,
      sub_eq hcursor, ok_bind, List.length_drop]
    split
    · cases mode with
      | strict => simp [Mode.isStrict, byteLength_eq hwhole, ok_bind]
      | loose => simp [Mode.isStrict, pure, Except.pure]
    · next hleft =>
      have hstop : cursor + g.byteLength ≤ bs.length := by omega
      have hlen : ((bs.drop cursor).take g.byteLength).length = g.byteLength := by
        rw [List.length_take, List.length_drop]
        omega
      rw [add_eq (by omega), ok_bind, slice_add hstop, ok_bind,
        decodeAll_eq hg hlen, ok_bind, ih hrest hstop (by omega), List.drop_drop]
      simp only [List.append_assoc]

theorem unpack_eq (h : layout.WellFormed) (mode : Mode) (bs : Bytes) :
    unpack layout mode bs = lift (layout.unpack mode bs) := by
  have hloop := unpackLoop_eq h h.groups mode (Nat.zero_le bs.length) (by
    rw [Nat.zero_add]
    exact byteLength_lt h) []
  simp only [List.drop_zero, List.nil_append] at hloop
  rw [unpack, valueCount_eq h, ok_bind, hloop, Layout.unpack, Layout.unpackReporting]
  split <;> rfl

end BinaryRecord.Checked
