import BinaryRecord.Proofs.Command.Files

/-!
# Commands on a workspace

A command on a workspace is a sequence of steps, each of which gives a value or the
failure that ends the command, and the workspace afterwards. What each kind of step does is
told here once, so that a command is followed from step to step.

## Main definitions

* `Workspace.Action`: a step of a command, or several.
* `Workspace.input`: what a command reads under the name of its input.
* `Workspace.warnings`: the warnings logged so far.
-/

namespace BinaryRecord.Workspace
variable {α β : Type}

/-- A step of a command on a workspace, or several. -/
abbrev Action (α : Type) : Type := ExceptT Failure (StateM Workspace) α

/-- What a command reads under the name of its input: the file, or the standard input for `-`. -/
def input (w : Workspace) (path : String) : Except FileError Bytes :=
  if path = "-" then .ok w.stdin else w.read path

/-- The workspace after a command has read its input. -/
def afterInput (w : Workspace) (path : String) : Workspace :=
  if path = "-" then { w with stdin := [] } else w

/-- The workspace after a line was logged. -/
def logged (w : Workspace) (e : Event) : Workspace := { w with events := w.events ++ [e] }

/-- The warnings logged so far. -/
def warnings (w : Workspace) : List Event := w.events.filter (·.level = .warn)

/-! ## Steps -/

theorem run_bind (x : Action α) (f : α → Action β) (w : Workspace) :
    (x >>= f).run w =
      match x.run w with
      | (.ok a, w') => (f a).run w'
      | (.error e, w') => (.error e, w') := by
  change (match x.run w with | (r, w') => (ExceptT.bindCont f r) w') = _
  rcases x.run w with ⟨r, w'⟩
  cases r <;> rfl

theorem run_throw (e : Failure) (w : Workspace) :
    (throw e : Action α).run w = (.error e, w) := rfl

theorem run_log_bind (e : Event) (f : Unit → Action β) (w : Workspace) :
    ((liftM (host.log e) : Action Unit) >>= f).run w = (f ()).run (w.logged e) := rfl

theorem run_info_bind (message : String) (f : Unit → Action β) (w : Workspace) :
    ((liftM (host.info message) : Action Unit) >>= f).run w =
      (f ()).run (w.logged ⟨.info, message⟩) := rfl

theorem run_ofExcept_bind (r : Except Failure α) (f : α → Action β) (w : Workspace) :
    ((Failure.ofExcept r : Action α) >>= f).run w =
      match r with
      | .ok a => (f a).run w
      | .error e => (.error e, w) := by
  cases r <;> rfl

theorem run_readFormat_bind (text : String) (f : Format → Action β) (w : Workspace) :
    ((Host.readFormat text : Action Format) >>= f).run w =
      match Format.parse text with
      | .ok format => (f format).run w
      | .error e => (.error (.invalidFormat text e), w) := by
  unfold Host.readFormat
  cases Format.parse text <;> rfl

theorem run_readFile (path : String) (w : Workspace) :
    (liftM (host.readFile path) : Action (Except FileError Bytes)).run w =
      (.ok (w.read path), w) := rfl

theorem run_readInput_bind (path : String) (f : Bytes → Action β) (w : Workspace) :
    ((host.readInput path : Action Bytes) >>= f).run w =
      match w.input path with
      | .ok bs => (f bs).run (w.afterInput path)
      | .error e => (.error (.unreadableInput path e), w.afterInput path) := by
  unfold Host.readInput input afterInput
  by_cases h : path = "-"
  · simp only [h, if_true]
    rfl
  · simp only [h, if_false]
    rw [run_bind, run_bind, run_readFile]
    cases w.read path <;> rfl

theorem run_writeFile (path : String) (bs : Bytes) (w : Workspace) :
    (liftM (host.writeFile path bs) : Action (Except FileError Unit)).run w =
      match w.write path bs with
      | .ok w' => (.ok (.ok ()), w')
      | .error e => (.ok (.error e), w) := by
  change (Except.ok (host.writeFile path bs w).1, (host.writeFile path bs w).2) = _
  simp only [host]
  cases w.write path bs <;> rfl

theorem run_writeOutput (path : String) (bs : Bytes) (w : Workspace) :
    (host.writeOutput path bs : Action Unit).run w =
      match w.write path bs with
      | .ok w' => (.ok (), w')
      | .error e => (.error (.unwritableOutput path e), w) := by
  rw [Host.writeOutput, run_bind, run_writeFile]
  cases w.write path bs <;> rfl

/-- Writing a file changes nothing but the files. -/
theorem exists_files_of_write {w w' : Workspace} {path : String} {bs : Bytes}
    (h : w.write path bs = .ok w') : ∃ files, w' = { w with files } := by
  obtain ⟨-, -, place, -, -, -, -, -, rfl⟩ := write_eq_ok_iff.mp h
  exact ⟨store place bs w.files, rfl⟩

/-! ## Reading behind a log line -/

@[simp] theorem files_logged (w : Workspace) (e : Event) : (w.logged e).files = w.files := rfl

@[simp] theorem input_logged (w : Workspace) (e : Event) (path : String) :
    (w.logged e).input path = w.input path := by
  rw [input, input, read_congr (files_logged w e)]
  rfl

/-! ## Warnings -/

theorem warnings_logged (w : Workspace) (e : Event) :
    (w.logged e).warnings = w.warnings ++ if e.level = .warn then [e] else [] := by
  by_cases h : e.level = .warn <;> simp [warnings, logged, h]

@[simp] theorem warnings_logged_info (w : Workspace) (message : String) :
    (w.logged ⟨.info, message⟩).warnings = w.warnings := by
  simp [warnings_logged]

@[simp] theorem warnings_afterInput (w : Workspace) (path : String) :
    (w.afterInput path).warnings = w.warnings := by
  unfold afterInput
  split <;> rfl

/-- The warnings are after the step what they were before. -/
def KeepsWarnings (x : Action α) : Prop := ∀ w : Workspace, (x.run w).2.warnings = w.warnings

namespace KeepsWarnings

theorem pure (a : α) : KeepsWarnings (Pure.pure a : Action α) := fun _ => rfl

theorem bind {x : Action α} {f : α → Action β} (hx : KeepsWarnings x)
    (hf : ∀ a, KeepsWarnings (f a)) : KeepsWarnings (x >>= f) := by
  intro w
  have hfirst := hx w
  rw [run_bind]
  rcases hrun : x.run w with ⟨r, w'⟩
  rw [hrun] at hfirst
  cases r with
  | error e => exact hfirst
  | ok a => exact (hf a w').trans hfirst

theorem info (message : String) : KeepsWarnings (liftM (host.info message) : Action Unit) :=
  fun w => warnings_logged_info w message

theorem print (text : String) : KeepsWarnings (liftM (host.print text) : Action Unit) :=
  fun _ => rfl

theorem writeOutput (path : String) (bs : Bytes) :
    KeepsWarnings (host.writeOutput path bs : Action Unit) := by
  intro w
  rw [run_writeOutput]
  cases hwrite : w.write path bs with
  | error e => rfl
  | ok w' =>
    obtain ⟨files, rfl⟩ := exists_files_of_write hwrite
    rfl

end KeepsWarnings

end BinaryRecord.Workspace
