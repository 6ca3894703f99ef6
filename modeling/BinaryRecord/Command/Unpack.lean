import BinaryRecord.Command.Host

/-!
# The command that unpacks bytes

It reads a file, unpacks the bytes from an offset on by a format and writes the
values as a JSON array to a file, or prints them on a line each. The last line tells
whether the input held all values.
-/

namespace BinaryRecord

/-- What the command is asked for. -/
structure UnpackCommand where
  /-- The format's text. -/
  format : String
  /-- The file with the bytes, or `-`. -/
  input : String
  /-- The file for the values. -/
  output : Option String
  /-- The place of the first byte. -/
  offset : Nat
  /-- Stop where the bytes end? -/
  loose : Bool
  /-- Show byte strings as text? -/
  text : Bool
  deriving DecidableEq, Repr

namespace UnpackCommand

/-- The log line for unpacking that stopped early. -/
def stopEvent (s : Layout.Shortage) : Event :=
  let place := s.code.name
  ⟨.debug, s!"Loose unpack stopped at {place}: {s.left} bytes left, group needs {s.needed}"⟩

/-- The JSON forms of the values as asked for. -/
def items (c : UnpackCommand) (vs : List Value) : List Json := vs.map (·.toJsonAs c.text)

/-- The values, each on a line with its number. -/
def listing (items : List Json) : String :=
  "=== Decoded Values ===\n" ++
    String.join (items.zipIdx.map fun (j, i) => s!"[{i}] {j.render}\n")

/-- The line printed when there were fewer values than slots. -/
def shortLine (found expected : Nat) : String :=
  s!"✗ Input ended early: decoded {found} of {expected} values\n"

/-- The line printed when every slot got its value. -/
def fullLine (found : Nat) : String := s!"✓ Decoded {found} values\n"

/-- The last line: whether every slot got its value. -/
def summary (found expected : Nat) : String :=
  if found < expected then shortLine found expected else fullLine found

/-- Runs the command. -/
def run {m : Type → Type} [Monad m] (h : Host m) (c : UnpackCommand) :
    ExceptT Failure m Unit := do
  h.info s!"Unpacking {c.input} with format {Text.quoteString c.format}"
  let format ← Host.readFormat c.format
  let data ← h.readInput c.input
  h.info s!"Input size: {data.length} bytes, reading from offset {c.offset}"
  let (vs, stop?) ← Failure.ofExcept
    ((format.layout.unpackAtReporting (.ofLooseFlag c.loose) c.offset data).mapError
      (.unpacking c.input))
  if let some stop := stop? then h.log (stopEvent stop)
  match c.output with
  | some path =>
    h.writeOutput path (Utf8.encode (Json.array (c.items vs)).renderIndented)
    h.info s!"Decoded values written to: {path}"
  | none => h.print (listing (c.items vs))
  h.print (summary vs.length format.layout.valueCount)

end UnpackCommand
end BinaryRecord
