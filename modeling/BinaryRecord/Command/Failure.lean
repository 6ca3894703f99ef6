import BinaryRecord.Json.Value
import BinaryRecord.Text.Align

/-!
# Failures of commands

What makes a command fail, and how the failure is told: a sentence on what the
command was about, and beneath it the sentence on the cause.
-/

namespace BinaryRecord

/-- Why a file or a stream could not be read or written. -/
inductive FileError where
  | notFound
  | notDirectory
  | isDirectory
  | nameTooLong
  | nulInName
  /-- Any other refusal, in the words of the system. -/
  | other (words : String)
  deriving DecidableEq, Repr

/-- The words of the system, with its number for the error. -/
def FileError.message : FileError → String
  | notFound => "No such file or directory (os error 2)"
  | notDirectory => "Not a directory (os error 20)"
  | isDirectory => "Is a directory (os error 21)"
  | nameTooLong => "File name too long (os error 36)"
  | nulInName => "file name contained an unexpected NUL byte"
  | other words => words

/-- Why a command failed. -/
inductive Failure where
  | invalidFormat (text : String) (cause : Error)
  | unreadableStdin (cause : FileError)
  | unreadableInput (path : String) (cause : FileError)
  | invalidJson
  | misfit (m : Misfit)
  | packing (count : Nat) (cause : Error)
  | unpacking (input : String) (cause : Error)
  | unwritableOutput (path : String) (cause : FileError)

namespace Failure

/-- What the command was about, and the cause. The caller chooses the words for text
that is not JSON of the wanted shape. -/
def chain (jsonCause : String) : Failure → List String
  | invalidFormat text e => [s!"Invalid format string: {Text.quoteString text}", e.message]
  | unreadableStdin e => ["Failed to read stdin", e.message]
  | unreadableInput path e => [s!"Failed to read input file: {path}", e.message]
  | invalidJson => ["Failed to parse JSON input", jsonCause]
  | misfit m => [s!"Invalid value at index {m.index}", m.cause.message]
  | packing n e => [s!"Failed to pack {n} values", e.message]
  | unpacking input e => [s!"Failed to unpack {input}", e.message]
  | unwritableOutput path e => [s!"Failed to write output file: {path}", e.message]

/-- Indents the first line and, in their own way, those after it. -/
def indent (first others : String) (s : String) : String :=
  first ++ String.ofList (s.toList.flatMap fun c => if c = '\n' then c :: others.toList else [c])

/-- Causes on lines of their own; several are numbered. -/
def causeLines : List String → List String
  | [cause] => [indent "    " "    " cause]
  | causes => causes.zipIdx.map fun (cause, i) =>
      indent (Text.alignRight 5 (toString i) ++ ": ") "       " cause

/-- The report of a chain of sentences, the outermost first. -/
def report : List String → String
  | [] => "Error: "
  | [outer] => "Error: " ++ outer
  | outer :: causes =>
    "\n".intercalate (("Error: " ++ outer) :: "" :: "Caused by:" :: causeLines causes)

end Failure
end BinaryRecord
