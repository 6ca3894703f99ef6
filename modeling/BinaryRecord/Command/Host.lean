import BinaryRecord.Command.Failure
import BinaryRecord.Layout.Format

/-!
# What commands ask of their surroundings

A command reads a file or the standard input, writes a file, prints and logs. It is
written against a record of these operations in any monad, so the same text runs
on the system and on a pure model of it.
-/

namespace BinaryRecord

/-- The weight of a log line. -/
inductive Level where
  | debug
  | info
  | warn
  deriving DecidableEq, Repr

/-- The word that opens a log line. -/
def Level.label : Level → String
  | debug => "DEBUG"
  | info => "INFO"
  | warn => "WARN"

/-- A log line. -/
structure Event where
  level : Level
  message : String
  deriving DecidableEq, Repr

namespace Event

/-- Is the line shown? Only verbose operation shows debugging lines. -/
def shown (verbose : Bool) (e : Event) : Bool := verbose || e.level ≠ .debug

/-- The line as it is written. -/
def line (e : Event) : String := e.level.label ++ " " ++ e.message

end Event

/-- The operations that commands use. -/
structure Host (m : Type → Type) where
  /-- All of the standard input. -/
  readStdin : m (Except FileError Bytes)
  /-- The content of a file. -/
  readFile : (path : String) → m (Except FileError Bytes)
  /-- Replaces the content of a file, or leaves it as it was. -/
  writeFile : (path : String) → Bytes → m (Except FileError Unit)
  /-- Writes text to the standard output. -/
  print : String → m Unit
  /-- Writes a log line. -/
  log : Event → m Unit

/-- A result as the outcome of a step of a command. -/
def Failure.ofExcept {m : Type → Type} [Monad m] {α : Type} (r : Except Failure α) :
    ExceptT Failure m α := ExceptT.mk (pure r)

namespace Host
variable {m : Type → Type} [Monad m]

/-- Logs a line of weight `info`. -/
def info (h : Host m) (message : String) : m Unit := h.log ⟨.info, message⟩

/-- Reads a file, or the standard input under the name `-`. -/
def readInput (h : Host m) (input : String) : ExceptT Failure m Bytes := do
  if input = "-" then
    match ← h.readStdin with
    | .ok bs => return bs
    | .error e => throw (.unreadableStdin e)
  else
    match ← h.readFile input with
    | .ok bs => return bs
    | .error e => throw (.unreadableInput input e)

/-- Writes the output file. -/
def writeOutput (h : Host m) (path : String) (bs : Bytes) : ExceptT Failure m Unit := do
  match ← h.writeFile path bs with
  | .ok () => return ()
  | .error e => throw (.unwritableOutput path e)

/-- Reads the format that a command was given. -/
def readFormat (text : String) : ExceptT Failure m Format :=
  match Format.parse text with
  | .ok format => return format
  | .error e => throw (.invalidFormat text e)

end Host
end BinaryRecord
