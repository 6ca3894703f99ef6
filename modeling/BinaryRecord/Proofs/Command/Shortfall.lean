import BinaryRecord.Proofs.Command.Outcome

/-!
# Unpacking that stops early

The command that unpacks bytes tells in its last line whether the input ended early. It counts
values there, while strict unpacking counts bytes. Groups that the bytes do not cover lack values
exactly if one of them is no pad, so the line says nothing of an input that ends within the pads
at the end of the layout, which strict unpacking refuses.
-/

namespace BinaryRecord

namespace Layout
variable {layout : Layout}

/-! ## What is left out -/

/-- The groups from some place on hold values exactly if one of them is no pad. -/
theorem valueCount_take_lt_iff (hwf : layout.WellFormed) (k : ℕ) :
    valueCount (layout.take k) < layout.valueCount ↔
      (layout.drop k).all (·.code.isPad) = false := by
  have hsplit := valueCount_take_add layout k
  have hrest := (valueCount_eq_zero_iff (hwf.drop k).groups).not
  rw [Bool.not_eq_true] at hrest
  rw [← hrest]
  omega

theorem length_unpackScan_lt_iff (hwf : layout.WellFormed) (bs : Bytes) :
    (layout.unpackScan bs).1.length < layout.valueCount ↔
      (layout.drop (layout.covered Group.byteLength bs.length)).all (·.code.isPad) = false := by
  rw [length_unpackScan_fst hwf, valueCount_take_lt_iff hwf]

theorem drop_covered_eq_nil_iff (layout : Layout) (n : ℕ) :
    layout.drop (layout.covered Group.byteLength n) = [] ↔ layout.byteLength ≤ n := by
  have hall : layout.length ≤ layout.covered Group.byteLength n ↔ _ :=
    le_covered_iff (Nat.le_refl layout.length)
  rw [List.drop_eq_nil_iff, hall, List.take_length, ← byteLength_eq_sum]

/-- Strict unpacking gives values exactly if all groups are covered. -/
theorem unpack_strict_eq_ok_iff (layout : Layout) (bs : Bytes) :
    layout.unpack .strict bs = .ok (layout.unpackScan bs).1 ↔
      layout.drop (layout.covered Group.byteLength bs.length) = [] := by
  rw [drop_covered_eq_nil_iff, unpack_strict_eq_ite, unpack_loose]
  by_cases h : layout.byteLength ≤ bs.length <;> simp [h]

theorem unpack_strict_eq_error_iff (layout : Layout) (bs : Bytes) :
    layout.unpack .strict bs = .error (.tooFewBytes layout.byteLength bs.length) ↔
      layout.drop (layout.covered Group.byteLength bs.length) ≠ [] := by
  rw [Ne, drop_covered_eq_nil_iff, unpack_strict_eq_ite, unpack_loose]
  by_cases h : layout.byteLength ≤ bs.length <;> simp [h]

end Layout

namespace UnpackCommand
open Workspace

variable {c : UnpackCommand} {w : Workspace} {f : Format} {data : Bytes} {vs : List Value}

/-! ## The run -/

/-- The command comes to deliver what it has unpacked, without an effect before. -/
theorem run_eq_deliver {stop? : Option Layout.Shortage} (hparse : Format.parse c.format = .ok f)
    (hinput : w.input c.input = .ok data)
    (hunpack : f.layout.unpackAtReporting (.ofLooseFlag c.loose) c.offset data = .ok (vs, stop?)) :
    ∃ now, w.Keeps now ∧ w.run (.unpack c) = (c.deliver host f vs).run now := by
  change ∃ now, _ ∧ (c.run host).run w = _
  have hkeeps := fun e => ((Keeps.refl w).logged e).afterInput c.input
  rw [UnpackCommand.run, run_info_bind, run_readFormat_bind, hparse]
  dsimp only
  rw [run_readInput_bind, input_logged, hinput]
  dsimp only
  rw [run_info_bind, run_ofExcept_bind, hunpack]
  cases stop? with
  | none => exact ⟨_, (hkeeps _).logged _, rfl⟩
  | some stop => exact ⟨_, ((hkeeps _).logged _).logged _, rfl⟩

/-- Nothing can fail once the values are unpacked, unless they are for a file. -/
theorem exists_run_deliver (c : UnpackCommand) (houtput : c.output = none) (f : Format)
    (vs : List Value) (now : Workspace) : ∃ w', (c.deliver host f vs).run now = (.ok (), w') := by
  rw [deliver, houtput]
  exact ⟨_, rfl⟩

theorem summary_unpackScan (f : Format) (bs : Bytes) :
    summary (f.layout.unpackScan bs).1.length f.layout.valueCount =
      if (f.layout.drop (f.layout.covered Group.byteLength bs.length)).all (·.code.isPad) then
        fullLine (f.layout.unpackScan bs).1.length
      else shortLine (f.layout.unpackScan bs).1.length f.layout.valueCount := by
  have hshort := Layout.length_unpackScan_lt_iff f.wellFormed bs
  rw [summary]
  cases hall : (f.layout.drop (f.layout.covered Group.byteLength bs.length)).all (·.code.isPad) with
  | true => rw [if_neg (by simp [hshort, hall]), if_pos rfl]
  | false => rw [if_pos (hshort.mpr hall), if_neg Bool.false_ne_true]

/-- Loose unpacking stops at the first group that the bytes do not cover, and strict unpacking
refuses the input exactly if there is such a group. The last line that the command prints says
that the input ended early exactly if from there on some group is no pad. So the line tells what
strict unpacking does exactly if nothing is left out or some of it is no pad. -/
theorem run_loose_summary (c : UnpackCommand) (w : Workspace)
    (hparse : Format.parse c.format = .ok f) (hinput : w.input c.input = .ok data)
    (hloose : c.loose = true) :
    ∃ (k : ℕ) (vs : List Value),
      IsGreatest {i | i ≤ f.layout.length ∧
        Layout.byteLength (f.layout.take i) ≤ (data.drop c.offset).length} k ∧
      f.layout.unpackAt .loose c.offset data = .ok vs ∧
      (f.layout.unpackAt .strict c.offset data = .ok vs ↔ f.layout.drop k = []) ∧
      (f.layout.unpackAt .strict c.offset data =
        .error (.tooFewBytes f.layout.byteLength (data.drop c.offset).length) ↔
          f.layout.drop k ≠ []) ∧
      (vs.length < f.layout.valueCount ↔ (f.layout.drop k).all (·.code.isPad) = false) ∧
      ((vs.length < f.layout.valueCount ↔ (data.drop c.offset).length < f.layout.byteLength) ↔
        f.layout.drop k = [] ∨ (f.layout.drop k).all (·.code.isPad) = false) ∧
      (c.output = none → ∃ w', w.run (.unpack c) = (.ok (), w')) ∧
      ∀ w', w.run (.unpack c) = (.ok (), w') →
        w'.stdout = w.stdout ++ (if c.output.isNone then listing (c.items vs) else "") ++
          if (f.layout.drop k).all (·.code.isPad) then fullLine vs.length
          else shortLine vs.length f.layout.valueCount := by
  obtain ⟨bs, hbs⟩ : ∃ bs, bs = data.drop c.offset := ⟨_, rfl⟩
  have hvalues := Layout.length_unpackScan_lt_iff f.wellFormed bs
  have hscan : f.layout.unpackAtReporting (.ofLooseFlag c.loose) c.offset data =
      .ok (f.layout.unpackScan bs) := by
    rw [hloose, hbs]
    rfl
  obtain ⟨now, hkeeps, hrun⟩ := run_eq_deliver hparse hinput hscan
  simp only [Layout.unpackAt, ← hbs]
  refine ⟨f.layout.covered Group.byteLength bs.length, (f.layout.unpackScan bs).1, ?_, ?_, ?_, ?_,
    hvalues, ?_, ?_, ?_⟩
  · exact Layout.isGreatest_covered_bytes f.layout bs.length
  · exact Layout.unpack_loose f.layout bs
  · exact Layout.unpack_strict_eq_ok_iff f.layout bs
  · exact Layout.unpack_strict_eq_error_iff f.layout bs
  · rw [hvalues, ← Nat.not_le, ← Layout.drop_covered_eq_nil_iff]
    cases f.layout.drop (f.layout.covered Group.byteLength bs.length) <;> simp
  · intro houtput
    rw [hrun]
    exact c.exists_run_deliver houtput f _ now
  · intro w' hw'
    obtain ⟨-, hstdout⟩ := (c.transacts_deliver (r := .none) hkeeps f _).ends (hrun.symm.trans hw')
    rw [hstdout, summary_unpackScan]

/-- Pads and a number are left out. -/
theorem run_loose_summary_short :
    ∃ w', (Workspace.start [] [5, 7]).run (.unpack ⟨"B2xH", "-", none, 1, true, false⟩) =
        (.ok (), w') ∧
      w'.stdout =
        "=== Decoded Values ===\n[0] 7\n✗ Input ended early: decoded 1 of 2 values\n" := by
  have hparse : Layout.parse "B2xH" =
      .ok [⟨1, .uint8, .little, 1⟩, ⟨2, .pad, .little, 1⟩, ⟨1, .uint16, .little, 2⟩] := by decide
  have hformat : Format.parse "B2xH" = .ok ⟨"B2xH", _, hparse⟩ := rfl
  have hinput : (Workspace.start [] [5, 7]).input "-" = .ok [5, 7] := rfl
  obtain ⟨k, vs, -, hvs, -, -, hfew, -, hends, hprints⟩ :=
    run_loose_summary ⟨"B2xH", "-", none, 1, true, false⟩ _ hformat hinput rfl
  obtain rfl : [.uint 7] = vs := Except.ok.inj hvs
  obtain ⟨w', hrun⟩ := hends rfl
  refine ⟨w', hrun, ?_⟩
  have hrest := hfew.mp (show 1 < 2 by decide)
  rw [hprints w' hrun, hrest, if_neg Bool.false_ne_true]
  change "" ++ listing [.number (.natural 7)] ++ shortLine 1 2 = _
  rfl

/-- Strict unpacking refuses an input that lacks the byte of a pad at the end, while the command
prints that all values were decoded. -/
theorem run_loose_summary_trailing_pad :
    Layout.parse "Bx" = .ok [⟨1, .uint8, .little, 1⟩, ⟨1, .pad, .little, 1⟩] ∧
    Layout.unpackAt [⟨1, .uint8, .little, 1⟩, ⟨1, .pad, .little, 1⟩] .strict 0 [1] =
      .error (.tooFewBytes 2 1) ∧
    Layout.unpackAt [⟨1, .uint8, .little, 1⟩, ⟨1, .pad, .little, 1⟩] .loose 0 [1] =
      .ok [.uint 1] ∧
    ∃ w', (Workspace.start [] [1]).run (.unpack ⟨"Bx", "-", none, 0, true, false⟩) = (.ok (), w') ∧
      w'.stdout = "=== Decoded Values ===\n[0] 1\n✓ Decoded 1 values\n" :=
  ⟨by decide, by decide, by decide, _, rfl, rfl⟩

end UnpackCommand
end BinaryRecord
