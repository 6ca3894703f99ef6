import BinaryRecord.Layout.Pack
import BinaryRecord.Proofs.Checked.Group

/-!
# Packing with checks

Packing keeps the number of values that were consumed. Along a layout that was read it does not
pass the number of values given, so what is left is a difference of words and the next values are
a part of those given. A buffer is written only where the bytes fit behind the offset.

## Main definitions

* `Checked.outputBound`: the length of the output, told in advance.
* `Checked.pack`, `Checked.packAt`: the operations.
-/

namespace BinaryRecord.Checked
variable {g : Group} {layout : Layout} {vs : List Value}

/-! ## Programs -/

/-- The length of the output for the values that are left, behind `length` bytes. -/
def outputBound (length left : ℕ) : Layout → Run ℕ
  | [] => .ok length
  | g :: layout =>
    if g.code.isPad then do outputBound (← add length (← groupLength g)) left layout
    else if left < g.valueCount then .ok length
    else do
      let left ← sub left g.valueCount
      outputBound (← add length (← groupLength g)) left layout

/-- Packs the groups, when `next` values were consumed and `out` was put out. This traps as soon as
more values were consumed than there are. -/
def packLoop (vs : List Value) (next : ℕ) (out : Bytes) : Layout → Run Bytes
  | [] => .ok out
  | g :: layout =>
    if g.code.isPad then do packLoop vs next (out ++ fill (← groupLength g)) layout
    else do
      let left ← sub vs.length next
      if left < g.valueCount then return out
      else
        let stop ← add next g.valueCount
        let bytes ← encodeAll g (← slice vs next stop)
        packLoop vs stop (out ++ bytes) layout

/-- Looks for a lack of values, which is an error in strict operation. -/
def demandValues (layout : Layout) (mode : Mode) (vs : List Value) : Run Unit :=
  if mode.isStrict then do
    let needed ← valueCount layout
    if vs.length < needed then .error (.fail (.tooFewValues needed vs.length)) else return ()
  else .ok ()

/-- Packs values. -/
def pack (layout : Layout) (mode : Mode) (vs : List Value) : Run Bytes := do
  demandValues layout mode vs
  let _ ← outputBound 0 vs.length layout
  packLoop vs 0 [] layout

/-- Packs values into a buffer and gives the number of bytes written and the buffer afterwards. -/
def packAt (layout : Layout) (mode : Mode) (offset : ℕ) (vs : List Value) (buffer : Bytes) :
    Run (ℕ × Bytes) := do
  let packed ← pack layout mode vs
  let available := buffer.length - offset
  if buffer.length < offset ∨ available < packed.length then
    .error (.fail (.noRoom packed.length available))
  else
    let _ ← slice buffer offset (← add offset packed.length)
    return (packed.length, Layout.overwrite buffer offset packed)

/-! ## No traps -/

theorem outputBound_eq (hwf : ∀ g ∈ layout, g.WellFormed) (length left : ℕ)
    (h : length + layout.byteLength < wordLimit) :
    outputBound length left layout = .ok (length + layout.packedLength left) := by
  induction layout generalizing length left with
  | nil => rfl
  | cons g layout ih =>
    obtain ⟨hg, hrest⟩ := List.forall_mem_cons.mp hwf
    have hlength := groupLength_eq hg.count_le hg.size_eq
    rw [Layout.byteLength] at h
    have hsum : length + g.byteLength < wordLimit := by omega
    have hih := fun left => ih hrest (length + g.byteLength) left (by omega)
    rw [outputBound, Layout.packedLength]
    split
    · rw [hlength, ok_bind, add_eq hsum, ok_bind, hih, Nat.add_assoc]
    split
    · rfl
    · next hleft =>
      rw [sub_eq (Nat.le_of_not_lt hleft), ok_bind, hlength, ok_bind, add_eq hsum, ok_bind, hih,
        Nat.add_assoc]

theorem outputBound_zero (h : layout.WellFormed) (n : ℕ) :
    outputBound 0 n layout = .ok (layout.packedLength n) := by
  have hroom : 0 + layout.byteLength < wordLimit := by
    rw [Nat.zero_add]
    exact byteLength_lt h
  rw [outputBound_eq h.groups 0 n hroom, Nat.zero_add]

/-- The values consumed so far are among those given, and so are those of the next group. -/
theorem packLoop_eq (hwf : ∀ g ∈ layout, g.WellFormed) {next : ℕ} (hnext : next ≤ vs.length)
    (hroom : next + layout.valueCount < wordLimit) (out : Bytes) :
    packLoop vs next out layout =
      lift ((layout.packScan (vs.drop next)).map fun p => out ++ p.1) := by
  -- The values of the groups to come keep `next` below the limit of a word.
  induction layout generalizing next out with
  | nil => simp [packLoop, Layout.packScan, Except.map]
  | cons g layout ih =>
    obtain ⟨hg, hrest⟩ := List.forall_mem_cons.mp hwf
    rw [Layout.valueCount] at hroom
    rw [packLoop, Layout.packScan]
    split
    · rw [groupLength_eq hg.count_le hg.size_eq, ok_bind, ih hrest hnext (by omega)]
      cases Layout.packScan layout (vs.drop next) with
      | error e => rfl
      | ok p => exact congrArg Except.ok (List.append_assoc ..)
    · rw [sub_eq hnext, ok_bind, List.length_drop]
      split
      · simp [Except.map, pure, Except.pure]
      · next hleft =>
        have hstop : next + g.valueCount ≤ vs.length := by omega
        rw [add_eq (by omega), ok_bind, slice_add hstop, ok_bind, encodeAll_eq hg, List.drop_drop]
        cases g.encode ((vs.drop next).take g.valueCount) with
        | error e => rfl
        | ok bytes =>
          rw [lift_ok, ok_bind, ih hrest hstop (by omega)]
          cases Layout.packScan layout (vs.drop (next + g.valueCount)) with
          | error e => rfl
          | ok p => exact congrArg Except.ok (List.append_assoc ..)

theorem pack_eq (h : layout.WellFormed) (mode : Mode) (vs : List Value) :
    pack layout mode vs = lift (layout.pack mode vs) := by
  have hloop := packLoop_eq h.groups (Nat.zero_le vs.length) (by
    rw [Nat.zero_add]
    exact valueCount_lt h) []
  simp only [List.drop_zero, List.nil_append] at hloop
  rw [pack, outputBound_zero h, hloop, demandValues, valueCount_eq h, Layout.pack,
    Layout.packReporting]
  cases mode with
  | loose => rfl
  | strict =>
    by_cases hlack : vs.length < layout.valueCount
    · simp [Mode.isStrict, hlack, ok_bind, error_bind, Except.map]
    · simp [Mode.isStrict, hlack, ok_bind]

/-- What is written into a buffer lies within it. -/
theorem packAt_eq (h : layout.WellFormed) (mode : Mode) (offset : ℕ) (vs : List Value)
    {buffer : Bytes} (hbuffer : buffer.length < wordLimit) :
    packAt layout mode offset vs buffer =
      lift ((layout.packAt mode offset vs buffer).1.map fun n =>
        (n, (layout.packAt mode offset vs buffer).2)) := by
  rw [packAt, pack_eq h, Layout.packAt]
  cases layout.pack mode vs with
  | error e => rfl
  | ok packed =>
    by_cases hroom : offset + packed.length ≤ buffer.length
    · have hin : ¬ (buffer.length < offset ∨ buffer.length - offset < packed.length) := by omega
      have hfits : offset ≤ buffer.length ∧ packed.length ≤ buffer.length - offset := by omega
      simp only [lift_ok, ok_bind, if_neg hin, if_pos hfits,
        add_eq (Nat.lt_of_le_of_lt hroom hbuffer), slice_add hroom]
      rfl
    · have hout : buffer.length < offset ∨ buffer.length - offset < packed.length := by omega
      have hnot : ¬ (offset ≤ buffer.length ∧ packed.length ≤ buffer.length - offset) := by omega
      simp only [lift_ok, ok_bind, if_pos hout, if_neg hnot]
      rfl

end BinaryRecord.Checked
