import BinaryRecord.Command.Host
import BinaryRecord.Json.Parse
import BinaryRecord.Text.Hex

/-!
# The command that packs values

It reads a JSON array, packs its items by a format and writes the bytes to a file,
prints them as hexadecimal text, or both. Nothing is written or printed unless all
of it can be packed.
-/

namespace BinaryRecord

/-- What the command is asked for. -/
structure PackCommand where
  /-- The format's text. -/
  format : String
  /-- The file with the values, or `-`. -/
  input : String
  /-- The file for the bytes. -/
  output : Option String
  /-- Stop where the values end? -/
  loose : Bool
  /-- Print the bytes even if they are written to a file? -/
  hex : Bool
  deriving DecidableEq, Repr

namespace PackCommand

/-- The log line for packing that stopped early. -/
def stopEvent (s : Layout.Shortage) : Event :=
  let place := s.code.name
  ⟨.debug, s!"Loose pack stopped at {place}: {s.left} values left, group needs {s.needed}"⟩

/-- The values of the input's items in the slots of the format. -/
def values (format : Format) (items : List Json) : Except Failure (List Value) :=
  (format.layout.readItems items).mapError .misfit

/-- Runs the command. -/
def run {m : Type → Type} [Monad m] (h : Host m) (c : PackCommand) : ExceptT Failure m Unit := do
  h.info s!"Packing values from {c.input} with format {Text.quoteString c.format}"
  let format ← Host.readFormat c.format
  let content ← h.readInput c.input
  let some items := Json.parseItemsBytes? content | throw .invalidJson
  h.info s!"Found {items.length} values to pack"
  let vs ← Failure.ofExcept (values format items)
  let (packed, stop?) ← Failure.ofExcept
    ((format.layout.packReporting (.ofLooseFlag c.loose) vs).mapError (.packing vs.length))
  if let some stop := stop? then h.log (stopEvent stop)
  let length := format.layout.byteLength
  if packed.length < length then
    h.log ⟨.warn, s!"Output truncated: {packed.length} of {length} bytes packed"⟩
  if let some path := c.output then
    h.writeOutput path packed
    h.info s!"Successfully packed {packed.length} bytes to {path}"
  if c.hex || c.output.isNone then h.print (Hex.encode packed ++ "\n")

end PackCommand
end BinaryRecord
