import BinaryRecord.Proofs.Command.Truncation
import BinaryRecord.Proofs.Text.Utf8

/-!
# Commands take effect whole or not at all

A command that fails has changed no file and printed nothing, whichever step failed, and one
that succeeds has written and printed exactly what it was asked for. This holds on every
workspace, also if the system refuses to read or write a file, or to read the standard input, for
reasons of its own. Only a write is taken to be whole: it replaces the content of a file or leaves
the file as it was.

## Main definitions

* `Workspace.Refusals`: what the system refuses for reasons of its own.
* `Workspace.Transacts`: a step ends as told, or fails without an effect.
* `Workspace.Outputs`: the files after a command with an output path, or without one.
* `PackCommand.Delivers`, `UnpackCommand.Delivers`: what was asked for is written and printed.
-/

namespace BinaryRecord

namespace Workspace
variable {α β : Type} {w now w' : Workspace} {x : Action α} {post : α → Workspace → Prop}

/-- What the system refuses for reasons of its own, such as permissions or a full disk. -/
structure Refusals where
  /-- Why a file is not read. -/
  read : Workspace → String → Option FileError
  /-- Why the standard input is not read to its end, and what is left of it. -/
  readStdin : Workspace → Option (FileError × Bytes)
  /-- Why a file is not written. -/
  write : Workspace → String → Bytes → Option FileError

namespace Refusals

/-- Nothing is refused. -/
def none : Refusals := ⟨fun _ _ => .none, fun _ => .none, fun _ _ _ => .none⟩

/-- The operations of a command on a workspace whose system may refuse some. -/
def host (r : Refusals) : Host (StateM Workspace) :=
  { Workspace.host with
    readFile path := fun w =>
      match r.read w path with
      | some e => (.error e, w)
      | .none => Workspace.host.readFile path w
    readStdin := fun w =>
      match r.readStdin w with
      | some (e, rest) => (.error e, { w with stdin := rest })
      | .none => Workspace.host.readStdin w
    writeFile path bs := fun w =>
      match r.write w path bs with
      | some e => (.error e, w)
      | .none => Workspace.host.writeFile path bs w }

end Refusals

/-- The outcome of a command and the workspace afterwards, if the system may refuse. -/
def runUnder (w : Workspace) (r : Refusals) (c : Command) : Except Failure Unit × Workspace :=
  (c.run r.host).run w

theorem runUnder_none (w : Workspace) (c : Command) : w.runUnder .none c = w.run c := rfl

/-! ## Steps without an effect -/

/-- The second workspace has the files of the first, and nothing more was printed. -/
structure Keeps (w w' : Workspace) : Prop where
  files_eq : w'.files = w.files
  stdout_eq : w'.stdout = w.stdout

namespace Keeps

theorem refl (w : Workspace) : w.Keeps w := ⟨rfl, rfl⟩

theorem logged (h : w.Keeps now) (e : Event) : w.Keeps (now.logged e) := ⟨h.1, h.2⟩

theorem afterInput (h : w.Keeps now) (path : String) : w.Keeps (now.afterInput path) := by
  rw [Workspace.afterInput]
  split
  · exact ⟨h.files_eq, h.stdout_eq⟩
  · exact h

end Keeps

/-! ## Steps that take effect whole or not at all -/

/-- Run from the workspace `now`, the step ends with a value and a workspace as told, or it
fails with the files and the output of `w`. -/
def Transacts (w : Workspace) (x : Action α) (post : α → Workspace → Prop) (now : Workspace) :
    Prop :=
  match x.run now with
  | (.ok a, w') => post a w'
  | (.error _, w') => w.Keeps w'

namespace Transacts
variable {r : Refusals}

theorem bind {f : α → Action β} {post : β → Workspace → Prop}
    (h : w.Transacts x (fun a => w.Transacts (f a) post) now) :
    w.Transacts (x >>= f) post now := by
  simp only [Transacts, run_bind] at h ⊢
  rcases hrun : x.run now with ⟨r, w'⟩
  cases r <;> simpa [hrun] using h

theorem mono {post' : α → Workspace → Prop} (h : w.Transacts x post now)
    (hpost : ∀ a w', post a w' → post' a w') : w.Transacts x post' now := by
  simp only [Transacts] at h ⊢
  rcases hrun : x.run now with ⟨r, w'⟩
  cases r with
  | error e => simpa [hrun] using h
  | ok a => exact hpost a w' (by simpa [hrun] using h)

theorem keeps {e : Failure} (h : w.Transacts x post now) (hrun : x.run now = (.error e, w')) :
    w.Keeps w' := by
  rw [Transacts, hrun] at h
  exact h

theorem ends {a : α} (h : w.Transacts x post now) (hrun : x.run now = (.ok a, w')) :
    post a w' := by
  rw [Transacts, hrun] at h
  exact h

theorem pure {a : α} (h : post a now) : w.Transacts (Pure.pure a) post now := h

theorem throw (e : Failure) (h : w.Keeps now) : w.Transacts (throw e : Action α) post now := h

/-- An operation that cannot fail the command. -/
theorem lift {y : StateM Workspace α} (h : post (y now).1 (y now).2) :
    w.Transacts (liftM y) post now := h

theorem log {post : Unit → Workspace → Prop} (e : Event) (h : post () (now.logged e)) :
    w.Transacts (liftM (r.host.log e)) post now := h

theorem print {post : Unit → Workspace → Prop} (text : String)
    (h : post () { now with stdout := now.stdout ++ text }) :
    w.Transacts (liftM (r.host.print text)) post now := h

theorem ofExcept {result : Except Failure α} (hkeeps : w.Keeps now)
    (h : ∀ a, result = .ok a → post a now) : w.Transacts (Failure.ofExcept result) post now := by
  cases result with
  | error e => exact hkeeps
  | ok a => exact h a rfl

theorem readFormat {text : String} {post : Format → Workspace → Prop} (hkeeps : w.Keeps now)
    (h : ∀ f, Format.parse text = .ok f → post f now) :
    w.Transacts (Host.readFormat text) post now := by
  rw [Host.readFormat]
  cases hparse : Format.parse text with
  | error e => exact hkeeps
  | ok f => exact h f hparse

/-- What is read from a file is what it holds. -/
theorem readFile {path : String} {post : Except FileError Bytes → Workspace → Prop}
    (h : ∀ result, (∀ bs, result = .ok bs → now.read path = .ok bs) → post result now) :
    w.Transacts (liftM (r.host.readFile path)) post now := by
  apply lift
  cases hr : r.read now path with
  | none => simpa [Refusals.host, hr, Workspace.host] using h (now.read path) fun _ => id
  | some e =>
    have hrefused : ∀ bs : Bytes, Except.error e = .ok bs → now.read path = .ok bs := by
      intro bs hbs
      cases hbs
    simpa [Refusals.host, hr] using h (.error e) hrefused

/-- The standard input is read to its end, or it is refused and some of it may be gone. -/
theorem readStdin {post : Except FileError Bytes → Workspace → Prop}
    (herror : ∀ e rest, post (.error e) { now with stdin := rest })
    (hok : post (.ok now.stdin) { now with stdin := [] }) :
    w.Transacts (liftM r.host.readStdin) post now := by
  apply lift
  cases hr : r.readStdin now with
  | none => simpa [Refusals.host, hr, Workspace.host] using hok
  | some refusal => simpa [Refusals.host, hr] using herror refusal.1 refusal.2

theorem readInput {path : String} {post : Bytes → Workspace → Prop} (hkeeps : w.Keeps now)
    (h : ∀ bs, now.input path = .ok bs → post bs (now.afterInput path)) :
    w.Transacts (r.host.readInput path) post now := by
  rw [Host.readInput]
  by_cases hpath : path = "-"
  · rw [if_pos hpath]
    rw [input, if_pos hpath, Workspace.afterInput, if_pos hpath] at h
    refine .bind (readStdin ?_ ?_)
    · intro e rest
      exact ⟨hkeeps.files_eq, hkeeps.stdout_eq⟩
    · exact h now.stdin rfl
  · rw [if_neg hpath]
    rw [input, if_neg hpath, Workspace.afterInput, if_neg hpath] at h
    refine .bind (readFile ?_)
    intro result hresult
    cases result with
    | error e => exact hkeeps
    | ok bs => exact h bs (hresult bs rfl)

/-- A write that is refused leaves all as it was. -/
theorem writeFile {path : String} {bs : Bytes} {post : Except FileError Unit → Workspace → Prop}
    (herror : ∀ e, post (.error e) now)
    (hok : ∀ w', now.write path bs = .ok w' → post (.ok ()) w') :
    w.Transacts (liftM (r.host.writeFile path bs)) post now := by
  apply lift
  cases hr : r.write now path bs with
  | some e => simpa [Refusals.host, hr] using herror e
  | none =>
    cases hwrite : now.write path bs with
    | error e => simpa [Refusals.host, hr, Workspace.host, hwrite] using herror e
    | ok w' => simpa [Refusals.host, hr, Workspace.host, hwrite] using hok w' hwrite

theorem writeOutput {path : String} {bs : Bytes} {post : Unit → Workspace → Prop}
    (hkeeps : w.Keeps now)
    (h : ∀ w', w.Replaces w' path bs → w'.stdout = w.stdout → post () w') :
    w.Transacts (r.host.writeOutput path bs) post now := by
  rw [Host.writeOutput]
  refine .bind (writeFile (fun _ => hkeeps) ?_)
  intro w' hwrite
  have hreplaces := (Replaces.of_write hwrite).congr hkeeps.files_eq.symm rfl
  obtain ⟨files, rfl⟩ := exists_files_of_write hwrite
  exact h _ hreplaces hkeeps.stdout_eq

end Transacts

/-- The files after a command that has bytes for its output: they are at the path, if one is
given, and nothing else changed. -/
def Outputs (w w' : Workspace) (bs : Bytes) : Option String → Prop
  | none => w'.files = w.files
  | some path => w.Replaces w' path bs

end Workspace

/-! ## The commands -/

section
open Workspace

variable (r : Refusals) (w : Workspace)

theorem Calcsize.transacts_run (c : Calcsize) :
    w.Transacts (c.run r.host) (fun _ w' => ∃ f, Format.parse c.format = .ok f ∧
      w'.files = w.files ∧ w'.stdout = w.stdout ++ s!"{f.layout.byteLength}\n" ++
        if c.fields then listing f.layout else "") w := by
  rw [Calcsize.run]
  refine .bind (.readFormat (.refl w) ?_)
  intro f hparse
  refine .bind (.log _ (.bind (.print _ ?_)))
  cases hfields : c.fields with
  | false => exact .pure ⟨f, hparse, rfl, by simp [logged]⟩
  | true => exact .print _ ⟨f, hparse, rfl, by simp [logged]⟩

namespace PackCommand

/-- The bytes are written to the output path, if one is given, and printed if asked for or if
there is no path. -/
def Delivers (c : PackCommand) (w : Workspace) (packed : Bytes) (w' : Workspace) : Prop :=
  w.Outputs w' packed c.output ∧
    w'.stdout = w.stdout ++ if c.hex || c.output.isNone then Hex.encode packed ++ "\n" else ""

variable {r w} {now : Workspace}

/-- Nothing can fail after the write. -/
theorem transacts_deliver (c : PackCommand) (hkeeps : w.Keeps now) (packed : Bytes) :
    w.Transacts (c.deliver r.host packed) (fun _ w' => c.Delivers w packed w') now := by
  simp only [deliver, Delivers]
  cases houtput : c.output with
  | none =>
    simp only [Option.isNone_none, Bool.or_true, if_true]
    exact .print _ ⟨hkeeps.files_eq, by simp [hkeeps.stdout_eq]⟩
  | some path =>
    refine .bind (.writeOutput hkeeps ?_)
    intro w' hreplaces hstdout
    refine .bind (.log _ ?_)
    cases hhex : c.hex with
    | false => exact .pure ⟨hreplaces.congr rfl rfl, by simp [logged, hstdout]⟩
    | true => exact .print _ ⟨hreplaces.congr rfl rfl, by simp [logged, hstdout]⟩

theorem transacts_finish (c : PackCommand) (hkeeps : w.Keeps now) (f : Format) (packed : Bytes) :
    w.Transacts (c.finish r.host f packed) (fun _ w' => c.Delivers w packed w') now := by
  rw [finish]
  split
  · exact .bind (.log _ (c.transacts_deliver (hkeeps.logged _) packed))
  · exact c.transacts_deliver hkeeps packed

theorem transacts_conclude (c : PackCommand) (hkeeps : w.Keeps now) (f : Format) (packed : Bytes)
    (stop? : Option Layout.Shortage) :
    w.Transacts (c.conclude r.host f packed stop?) (fun _ w' => c.Delivers w packed w') now := by
  cases stop? with
  | none => exact c.transacts_finish hkeeps f packed
  | some stop => exact .bind (.log _ (c.transacts_finish (hkeeps.logged _) f packed))

theorem transacts_run (c : PackCommand) :
    w.Transacts (c.run r.host) (fun _ w' => ∃ f vs packed, c.Reads w f vs ∧
      f.layout.pack (.ofLooseFlag c.loose) vs = .ok packed ∧ c.Delivers w packed w') w := by
  rw [PackCommand.run]
  refine .bind (.log _ (.bind (.readFormat ((Keeps.refl w).logged _) ?_)))
  intro f hparse
  refine .bind (.readInput ((Keeps.refl w).logged _) ?_)
  intro content hinput
  rw [input_logged] at hinput
  have hkeeps := fun e => ((Keeps.refl w).logged e).afterInput c.input
  cases hitems : Json.parseItemsBytes? content with
  | none => exact .throw _ (hkeeps _)
  | some items =>
    refine .bind (.log _ (.bind (.ofExcept ((hkeeps _).logged _) ?_)))
    intro vs hvalues
    refine .bind (.ofExcept ((hkeeps _).logged _) ?_)
    rintro ⟨packed, stop?⟩ hpack
    have hpacked : f.layout.pack (.ofLooseFlag c.loose) vs = .ok packed :=
      Except.map_eq_ok_iff.mpr ⟨_, Except.mapError_eq_ok_iff.mp hpack, rfl⟩
    refine (c.transacts_conclude ((hkeeps _).logged _) f packed stop?).mono ?_
    intro _ w' hdelivers
    exact ⟨f, vs, packed, ⟨content, items, hparse, hinput, hitems, hvalues⟩, hpacked, hdelivers⟩

end PackCommand

namespace UnpackCommand

/-- The values are written to the output path as a JSON array, or printed if there is none,
and the last line is printed. -/
def Delivers (c : UnpackCommand) (w : Workspace) (f : Format) (vs : List Value)
    (w' : Workspace) : Prop :=
  w.Outputs w' (Utf8.encode (Json.array (c.items vs)).renderIndented) c.output ∧
    w'.stdout = w.stdout ++ (if c.output.isNone then listing (c.items vs) else "") ++
      summary vs.length f.layout.valueCount

/-- The command writes the values or prints them, and prints the last line. -/
def deliver {m : Type → Type} [Monad m] (c : UnpackCommand) (h : Host m) (f : Format)
    (vs : List Value) : ExceptT Failure m Unit := do
  match c.output with
  | some path =>
    h.writeOutput path (Utf8.encode (Json.array (c.items vs)).renderIndented)
    h.info s!"Decoded values written to: {path}"
  | none => h.print (listing (c.items vs))
  h.print (summary vs.length f.layout.valueCount)

variable {r w} {now : Workspace}

theorem transacts_deliver (c : UnpackCommand) (hkeeps : w.Keeps now) (f : Format)
    (vs : List Value) :
    w.Transacts (c.deliver r.host f vs) (fun _ w' => c.Delivers w f vs w') now := by
  simp only [deliver, Delivers]
  cases houtput : c.output with
  | none => exact .bind (.print _ (.print _ ⟨hkeeps.files_eq, by simp [hkeeps.stdout_eq]⟩))
  | some path =>
    refine .bind (.writeOutput hkeeps ?_)
    intro w' hreplaces hstdout
    exact .bind (.log _ (.print _ ⟨hreplaces.congr rfl rfl, by simp [logged, hstdout]⟩))

theorem transacts_run (c : UnpackCommand) :
    w.Transacts (c.run r.host) (fun _ w' => ∃ f data vs, Format.parse c.format = .ok f ∧
      w.input c.input = .ok data ∧
      f.layout.unpackAt (.ofLooseFlag c.loose) c.offset data = .ok vs ∧
      c.Delivers w f vs w') w := by
  rw [UnpackCommand.run]
  refine .bind (.log _ (.bind (.readFormat ((Keeps.refl w).logged _) ?_)))
  intro f hparse
  refine .bind (.readInput ((Keeps.refl w).logged _) ?_)
  intro data hinput
  rw [input_logged] at hinput
  have hkeeps := fun e => ((Keeps.refl w).logged e).afterInput c.input
  refine .bind (.log _ (.bind (.ofExcept ((hkeeps _).logged _) ?_)))
  rintro ⟨vs, stop?⟩ hunpack
  have hunpacked : f.layout.unpackAt (.ofLooseFlag c.loose) c.offset data = .ok vs :=
    Except.map_eq_ok_iff.mpr ⟨_, Except.mapError_eq_ok_iff.mp hunpack, rfl⟩
  refine .mono (?_ : w.Transacts _ (fun _ w' => c.Delivers w f vs w') _) ?_
  · cases stop? with
    | none => exact c.transacts_deliver ((hkeeps _).logged _) f vs
    | some stop => exact .bind (.log _ (c.transacts_deliver (((hkeeps _).logged _).logged _) f vs))
  · intro _ w' hdelivers
    exact ⟨f, data, vs, hparse, hinput, hunpacked, hdelivers⟩

end UnpackCommand

end

namespace Command

/-- The text of the format that the command was given. -/
def format : Command → String
  | calcsize c => c.format
  | pack c => c.format
  | unpack c => c.format

/-- The line that the command logs before it looks at the format. -/
def opening : Command → List Event
  | calcsize _ => []
  | pack c => [⟨.info, s!"Packing values from {c.input} with format {Text.quoteString c.format}"⟩]
  | unpack c => [⟨.info, s!"Unpacking {c.input} with format {Text.quoteString c.format}"⟩]

section
variable {m : Type → Type} [Monad m] [LawfulMonad m] (h : Host m) {text : String} {e : Error}

theorem run_readFormat_of_error {α : Type} (k : Format → ExceptT Failure m α)
    (hparse : Format.parse text = .error e) :
    (Host.readFormat text >>= k).run = pure (.error (.invalidFormat text e)) := by
  simp [Host.readFormat, hparse]

/-- A bad format is told before anything is read: the command logs and fails. -/
theorem run_of_parse_eq_error {c : Command} (hparse : Format.parse c.format = .error e) :
    (c.run h).run = do
      c.opening.forM h.log
      return .error (.invalidFormat c.format e) := by
  cases c with
  | calcsize c =>
    simp only [format, opening] at hparse ⊢
    rw [run, Calcsize.run, run_readFormat_of_error _ hparse]
    simp
  | pack c =>
    simp only [format, opening] at hparse ⊢
    rw [run, PackCommand.run, ExceptT.run_bind]
    simp only [run_readFormat_of_error _ hparse]
    simp [Host.info]
  | unpack c =>
    simp only [format, opening] at hparse ⊢
    rw [run, UnpackCommand.run, ExceptT.run_bind]
    simp only [run_readFormat_of_error _ hparse]
    simp [Host.info]

end

theorem keeps_of_run_eq_error {r : Workspace.Refusals} {w w' : Workspace} {c : Command}
    {e : Failure} (h : w.runUnder r c = (.error e, w')) : w.Keeps w' := by
  cases c with
  | calcsize c => exact (c.transacts_run r w).keeps h
  | pack c => exact c.transacts_run.keeps h
  | unpack c => exact c.transacts_run.keeps h

/-- A command that fails has changed no file and printed nothing, and a bad format fails before
anything is read, on any host. When packing succeeds, the bytes of the values that were found
are at the output path, if one is given, and on the standard output if asked for or if there
is no path. When unpacking succeeds, the values of the bytes that were found are at the output
path as a JSON array, also if these bytes were read from that path. -/
theorem run_all_or_nothing (r : Workspace.Refusals) (w : Workspace) :
    (∀ (c : Command) (e : Failure) (w' : Workspace), w.runUnder r c = (.error e, w') →
      w'.files = w.files ∧ w'.stdout = w.stdout) ∧
    (∀ (c : Command) (e : Error), Format.parse c.format = .error e →
      ∀ (m : Type → Type) [Monad m] [LawfulMonad m] (h : Host m), (c.run h).run = do
        c.opening.forM h.log
        return .error (.invalidFormat c.format e)) ∧
    (∀ (c : PackCommand) (w' : Workspace), w.runUnder r (.pack c) = (.ok (), w') →
      ∃ f vs packed, c.Reads w f vs ∧ f.layout.pack (.ofLooseFlag c.loose) vs = .ok packed ∧
        w.Outputs w' packed c.output ∧ w'.stdout = w.stdout ++
          if c.hex || c.output.isNone then Hex.encode packed ++ "\n" else "") ∧
    ∀ (c : UnpackCommand) (w' : Workspace), w.runUnder r (.unpack c) = (.ok (), w') →
      ∃ f data vs, Format.parse c.format = .ok f ∧ w.input c.input = .ok data ∧
        f.layout.unpackAt (.ofLooseFlag c.loose) c.offset data = .ok vs ∧
        w.Outputs w' (Utf8.encode (Json.array (c.items vs)).renderIndented) c.output ∧
        w'.stdout = w.stdout ++
          (if c.output.isNone then UnpackCommand.listing (c.items vs) else "") ++
          UnpackCommand.summary vs.length f.layout.valueCount := by
  refine ⟨?_, ?_, ?_, ?_⟩
  · intro c e w' hrun
    have hkeeps := keeps_of_run_eq_error hrun
    exact ⟨hkeeps.files_eq, hkeeps.stdout_eq⟩
  · intro c e hparse m _ _ h
    exact run_of_parse_eq_error h hparse
  · intro c w' hrun
    exact c.transacts_run.ends hrun
  · intro c w' hrun
    exact c.transacts_run.ends hrun

/-- A file of two bytes is unpacked in place, and stays if the format covers three, or if the
standard input breaks off. A file with two numbers is packed. -/
theorem run_all_or_nothing_in_place :
    ∃ w : Workspace, w = .start [("in.json", Utf8.encode "[1, 2]"), ("raw.bin", [1, 2])] [] ∧
      (∃ e w', w.runUnder { Workspace.Refusals.none with readStdin := fun _ => some (e, []) }
          (.unpack ⟨"BB", "-", some "raw.bin", 0, true, false⟩) =
            (.error (.unreadableStdin e), w') ∧
        w'.files = w.files ∧ w'.stdout = "") ∧
      (∃ e w', w.run (.unpack ⟨"BH", "raw.bin", some "raw.bin", 0, false, false⟩) = (.error e, w') ∧
        w'.files = w.files ∧ w'.stdout = "") ∧
      (∃ w', w.run (.unpack ⟨"BB", "raw.bin", some "raw.bin", 0, false, false⟩) = (.ok (), w') ∧
        w'.read "raw.bin" = .ok (Utf8.encode "[\n  1,\n  2\n]")) ∧
      ∃ w', w.run (.pack ⟨"BB", "in.json", some "raw.bin", false, true⟩) = (.ok (), w') ∧
        w'.read "raw.bin" = .ok [1, 2] ∧ w'.stdout = "0102\n" := by
  have hparse : Format.parse "BB" =
      .ok ⟨"BB", [⟨1, .uint8, .little, 1⟩, ⟨1, .uint8, .little, 1⟩], by decide⟩ := rfl
  obtain ⟨w, hw⟩ : ∃ w : Workspace,
      w = .start [("in.json", Utf8.encode "[1, 2]"), ("raw.bin", [1, 2])] [] := ⟨_, rfl⟩
  obtain ⟨hfails, -, hpacks, hunpacks⟩ := run_all_or_nothing .none w
  refine ⟨w, hw, ?_, ?_, ?_, ?_⟩
  · obtain ⟨e, w', hrun⟩ : ∃ e w',
        w.runUnder { Workspace.Refusals.none with readStdin := fun _ => some (e, []) }
          (.unpack ⟨"BB", "-", some "raw.bin", 0, true, false⟩) =
            (.error (.unreadableStdin e), w') := ⟨.other "Input/output error (os error 5)", _, rfl⟩
    obtain ⟨hfiles, hstdout⟩ := (run_all_or_nothing _ w).1 _ _ w' hrun
    exact ⟨e, w', hrun, hfiles, by rw [hstdout, hw, Workspace.start]⟩
  · obtain ⟨e, w', hrun⟩ : ∃ e w',
        w.run (.unpack ⟨"BH", "raw.bin", some "raw.bin", 0, false, false⟩) = (.error e, w') := by
      rw [hw]
      exact ⟨_, _, rfl⟩
    obtain ⟨hfiles, hstdout⟩ := hfails _ e w' ((w.runUnder_none _).trans hrun)
    exact ⟨e, w', hrun, hfiles, by rw [hstdout, hw, Workspace.start]⟩
  · obtain ⟨w', hrun⟩ : ∃ w',
        w.run (.unpack ⟨"BB", "raw.bin", some "raw.bin", 0, false, false⟩) = (.ok (), w') := by
      rw [hw]
      exact ⟨_, rfl⟩
    obtain ⟨f, data, vs, hf, hdata, hvs, ⟨hread, -⟩, -⟩ :=
      hunpacks _ w' ((w.runUnder_none _).trans hrun)
    obtain rfl := Except.ok.inj (hparse.symm.trans hf)
    have hraw : w.input "raw.bin" = .ok [1, 2] := by
      rw [hw]
      rfl
    obtain rfl := Except.ok.inj (hraw.symm.trans hdata)
    obtain rfl : [.uint 1, .uint 2] = vs := Except.ok.inj hvs
    exact ⟨w', hrun, hread⟩
  · have hcontent : w.input "in.json" = .ok (Utf8.encode "[1, 2]") := by
      rw [hw]
      rfl
    have hitems : Json.parseItemsBytes? (Utf8.encode "[1, 2]") =
        some [.number (.natural 1), .number (.natural 2)] := by
      rw [Json.parseItemsBytes?, Utf8.decode?_encode]
      rfl
    obtain ⟨w', hrun⟩ : ∃ w',
        w.run (.pack ⟨"BB", "in.json", some "raw.bin", false, true⟩) = (.ok (), w') := by
      change ∃ w', (PackCommand.run Workspace.host _).run w = (_, w')
      rw [PackCommand.run, Workspace.run_info_bind, Workspace.run_readFormat_bind, hparse]
      dsimp only
      rw [Workspace.run_readInput_bind, Workspace.input_logged, hcontent]
      dsimp only
      rw [hitems, hw]
      exact ⟨_, rfl⟩
    obtain ⟨f, vs, packed, hreads, hpacked, ⟨hread, -⟩, hstdout⟩ :=
      hpacks _ w' ((w.runUnder_none _).trans hrun)
    obtain ⟨rfl, rfl⟩ := hreads.unique ⟨_, _, hparse, hcontent, hitems, rfl⟩
    obtain rfl : [1, 2] = packed := Except.ok.inj hpacked
    refine ⟨w', hrun, hread, ?_⟩
    rw [hstdout, hw, Workspace.start]
    rfl

end Command

end BinaryRecord
