import BinaryRecord.Command.Session

/-!
# The program

The commands on the files and streams of the system.
-/

namespace BinaryRecord

/-- The cause of an error of the system. -/
def FileError.ofSystem : IO.Error → FileError
  | .noFileOrDirectory .. | .noSuchThing .. => .notFound
  | .inappropriateType _ 21 _ => .isDirectory
  | .inappropriateType _ 20 _ => .notDirectory
  | .invalidArgument _ 36 _ => .nameTooLong
  | e => .other (toString e)

/-- Runs a system operation and gives its error as a result. -/
def attempt {α : Type} (action : IO α) : IO (Except FileError α) := do
  match ← action.toBaseIO with
  | .ok a => return .ok a
  | .error e => return .error (.ofSystem e)

/-- The bytes of an array. -/
def Bytes.ofArray (a : ByteArray) : Bytes := a.data.toList

/-- The array of the bytes. -/
def Bytes.toArray (bs : Bytes) : ByteArray := ⟨List.toArray bs⟩

/-- The operations of commands on the system. -/
def systemHost (verbose : Bool) : Host IO where
  readStdin := do return (← attempt do (← IO.getStdin).readBinToEnd).map .ofArray
  readFile path := do return (← attempt (IO.FS.readBinFile path)).map .ofArray
  writeFile path bs := attempt (IO.FS.writeBinFile path bs.toArray)
  print := IO.print
  log e := if e.shown verbose then IO.eprintln e.line else pure ()

/-- Is verbose operation asked for? -/
def Request.verbose : Request → Bool
  | .run verbose _ => verbose
  | _ => false

end BinaryRecord

open BinaryRecord in
def main (arguments : List String) : IO UInt32 := do
  let request := Request.ofArguments arguments
  let exit ← Exit.ofRequest (systemHost request.verbose) "not a JSON array" request
  unless exit.complaint.isEmpty do IO.eprintln exit.complaint
  return UInt32.ofNat exit.status
