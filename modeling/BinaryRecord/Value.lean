import BinaryRecord.Floating.Binary
import BinaryRecord.Text.Utf8

/-!
# Values

A value is what one slot of a record holds. Signed and unsigned integers are kept
apart, so the integer five has two values.
-/

namespace BinaryRecord

/-- The content of one value slot. -/
inductive Value where
  /-- A signed integer. -/
  | int (n : Int64)
  /-- An unsigned integer. -/
  | uint (n : UInt64)
  /-- A floating-point number. -/
  | float (x : Binary64)
  /-- A byte string. -/
  | bytes (bs : Bytes)
  deriving DecidableEq, Repr

namespace Value

/-- The class of a value, as messages name it. -/
inductive Tag where
  | int
  | uint
  | float
  | bytes
  deriving DecidableEq, Repr

/-- The word for the class of a value. -/
def Tag.label : Tag → String
  | int => "int"
  | uint => "uint"
  | float => "float"
  | bytes => "bytes"

/-- The class of a value. -/
def tag : Value → Tag
  | int _ => .int
  | uint _ => .uint
  | float _ => .float
  | bytes _ => .bytes

/-- The mathematical integer, if the value is one. -/
def integer? : Value → Option Int
  | int n => some n.toInt
  | uint n => some n.toNat
  | _ => none

/-- The value as a signed word, if it is an integer that fits. -/
def int64? : Value → Option Int64
  | int n => some n
  | uint n => if n < 0x8000000000000000 then some n.toInt64 else none
  | _ => none

/-- The value as an unsigned word, if it is an integer that fits. -/
def uint64? : Value → Option UInt64
  | int n => if 0 ≤ n then some n.toUInt64 else none
  | uint n => some n
  | _ => none

/-- The floating-point number, if the value is one. -/
def float? : Value → Option Binary64
  | float x => some x
  | _ => none

/-- The byte string, if the value is one. -/
def bytes? : Value → Option Bytes
  | bytes bs => some bs
  | _ => none

/-- Equality with numbers compared as numbers, so no NaN equals itself. -/
def numEq : Value → Value → Bool
  | float x, float y => x.numEq y
  | v, w => v = w

/-! ## Values of other types -/

/-- The value of an 8-bit signed word. -/
def ofInt8 (n : Int8) : Value := int n.toInt64

/-- The value of a 16-bit signed word. -/
def ofInt16 (n : Int16) : Value := int n.toInt64

/-- The value of a 32-bit signed word. -/
def ofInt32 (n : Int32) : Value := int n.toInt64

/-- The value of an 8-bit unsigned word. -/
def ofUInt8 (n : UInt8) : Value := uint n.toUInt64

/-- The value of a 16-bit unsigned word. -/
def ofUInt16 (n : UInt16) : Value := uint n.toUInt64

/-- The value of a 32-bit unsigned word. -/
def ofUInt32 (n : UInt32) : Value := uint n.toUInt64

/-- The value of a number of the 32-bit format. -/
def ofBinary32 (x : Binary32) : Value := float x.widen

/-- The value of a text: its UTF-8 bytes. -/
def ofString (s : String) : Value := bytes (Utf8.encode s)

end Value
end BinaryRecord
