import BinaryRecord.Code.Basic
import BinaryRecord.Text.Quoted
import BinaryRecord.Value

/-!
# Errors

The causes for which a format is refused and for which packing or unpacking
fails. Positions count characters of the format from zero. The wording stands in
`Error.message` alone.
-/

namespace BinaryRecord

/-- Why a format is refused, or why packing or unpacking fails. -/
inductive Error where
  /-- A character that is no digit, marker, blank or type code. -/
  | unknownCode (char : Char) (position : Nat)
  /-- A repeat count at the end of the format; its first digit is named. -/
  | unfinishedGroup (position : Nat)
  /-- A repeat count of zero; its first digit is named. -/
  | zeroRepeat (position : Nat)
  /-- A repeat count or a total length above the limit; the group's start is named. -/
  | tooLarge (position : Nat)
  /-- A blank inside a group; the blank is named. -/
  | interruptedCount (position : Nat)
  /-- An integer that the code cannot represent. -/
  | outOfRange (code : Code) (value : Int)
  /-- A finite number that rounds to infinity in the code's format. -/
  | floatTooLarge (code : Code)
  /-- A value of a class that the code does not store. -/
  | unsuitableValue (code : Code) (found : Value.Tag)
  /-- Fewer values than the layout has slots. -/
  | tooFewValues (needed available : Nat)
  /-- Fewer bytes than the layout covers. -/
  | tooFewBytes (needed available : Nat)
  /-- Packed bytes that do not fit behind the offset of a buffer. -/
  | noRoom (needed available : Nat)
  deriving DecidableEq, Repr

namespace Error

/-- The sentence that reports an error. -/
def message : Error → String
  | unknownCode c p => s!"Unknown type code {Text.quoteChar c} at position {p}"
  | unfinishedGroup p => s!"Repeat count at position {p} is not followed by a type code"
  | zeroRepeat p => s!"Repeat count at position {p} must be at least 1"
  | tooLarge p => s!"Repeat count at position {p} is too large"
  | interruptedCount p => s!"Repeat count interrupted at position {p}"
  | outOfRange c n => s!"Value {n} out of range for type code {Text.quoteChar c.char}"
  | floatTooLarge c => s!"Float value too large for type code {Text.quoteChar c.char}"
  | unsuitableValue c f =>
    s!"Type code {Text.quoteChar c.char} cannot encode a {f.label} value"
  | tooFewValues n a => s!"Not enough values: format needs {n}, got {a}"
  | tooFewBytes n a => s!"Not enough bytes: format needs {n}, got {a}"
  | noRoom n a => s!"Buffer too small: need {n} bytes, have {a}"

/-- Is the format itself at fault? -/
def concernsFormat : Error → Bool
  | unknownCode .. | unfinishedGroup _ | zeroRepeat _ | tooLarge _ | interruptedCount _ => true
  | _ => false

/-- Did values or bytes run out? Only these errors are absent from loose operation. -/
def isShortage : Error → Bool
  | tooFewValues .. | tooFewBytes .. => true
  | _ => false

end Error
end BinaryRecord
