import BinaryRecord.Command.Host

/-!
# The command that measures a format

It prints the number of bytes that a format covers and, if asked to, a line for each
group with its offset.
-/

namespace BinaryRecord

/-- What the command is asked for. -/
structure Calcsize where
  /-- The format's text. -/
  format : String
  /-- List the groups too? -/
  fields : Bool
  deriving DecidableEq, Repr

namespace Calcsize

/-- The line of a group that starts at an offset. -/
def groupLine (offset : Nat) (g : Group) : String :=
  let place := Text.alignLeft 6 (toString offset)
  let count := Text.alignRight 6 (toString g.count)
  let size := Text.alignRight 3 (toString g.size)
  s!"@{place} {count} x '{g.code.char}'  {size} bytes each  {g.order.label}\n"

/-- The lines of the groups, the first of which starts at `offset`. -/
def groupLines (offset : Nat) : Layout → List String
  | [] => []
  | g :: layout => groupLine offset g :: groupLines (offset + g.byteLength) layout

/-- The listing of the groups. -/
def listing (layout : Layout) : String :=
  "\n=== Fields ===\n" ++ String.join (groupLines 0 layout) ++
    s!"Values consumed:  {layout.valueCount}\n"

/-- Runs the command. -/
def run {m : Type → Type} [Monad m] (h : Host m) (c : Calcsize) : ExceptT Failure m Unit := do
  let format ← Host.readFormat c.format
  h.info s!"Parsed {format.layout.length} fields from {Text.quoteString c.format}"
  h.print s!"{format.layout.byteLength}\n"
  if c.fields then h.print (listing format.layout)

end Calcsize
end BinaryRecord
