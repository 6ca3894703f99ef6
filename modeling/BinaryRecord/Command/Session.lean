import BinaryRecord.Command.Arguments

/-!
# A run of the program

From the arguments to the exit status: help and version are printed, a wrong command
line ends with status 2 and a failed command with status 1 and a report.
-/

namespace BinaryRecord

/-- How the program ended. -/
structure Exit where
  /-- The exit status. -/
  status : Nat
  /-- What goes to the standard error output at the end. -/
  complaint : String

namespace Exit

/-- The end of a run without complaint. -/
def success : Exit := ⟨0, ""⟩

/-- The end of a run whose command line is wrong. -/
def usage (e : UsageError) : Exit :=
  ⟨2, "error: " ++ e.message ++ "\n\nFor more information, try '--help'.\n"⟩

/-- The end of a run whose command failed. -/
def failure (jsonCause : String) (f : Failure) : Exit :=
  ⟨1, Failure.report (f.chain jsonCause)⟩

/-- Does what a command line asks for. -/
def ofRequest {m : Type → Type} [Monad m] (h : Host m) (jsonCause : String) : Request → m Exit
  | .help topic => do
    h.print (usageText topic)
    return success
  | .version => do
    h.print versionText
    return success
  | .wrong e => return usage e
  | .run _ c => do
    match ← (c.run h).run with
    | .ok () => return success
    | .error f => return failure jsonCause f

end Exit
end BinaryRecord
