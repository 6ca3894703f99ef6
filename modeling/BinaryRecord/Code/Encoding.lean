import BinaryRecord.Error

/-!
# Storing one unit

`Code.encode` gives the bytes of one value under a code and `Code.decode` reads a
unit back. Integers of up to 32 bits must lie in the code's range, while the two
64-bit codes take any integer modulo `2 ^ 64`, so both store the same bits alike.
A string fills its unit: longer data is cut and shorter data followed by zeros.

## Main definitions

* `Code.lowest`, `Code.highest`: the range of an integer code.
* `Code.encode`, `Code.decode`: storing and reading one unit.
-/

namespace BinaryRecord

/-- The byte that fills pads and unused room in strings. -/
def fillByte : UInt8 := 0

/-- The most data bytes that a length byte can announce. -/
def pascalLimit : Nat := 255

/-- A run of fill bytes. -/
def fill (n : Nat) : Bytes := List.replicate n fillByte

@[simp] theorem length_fill (n : Nat) : (fill n).length = n := by simp [fill]

namespace Code

-- Powers are those of the core library, whatever else is imported beside this module.
attribute [local instance (2000)] instPowNat

/-- The least integer that an integer code represents. -/
def lowest (c : Code) : Int := if c.isSigned then -2 ^ (8 * c.width - 1) else 0

/-- The greatest integer that an integer code represents. -/
def highest (c : Code) : Int :=
  if c.isSigned then 2 ^ (8 * c.width - 1) - 1 else 2 ^ (8 * c.width) - 1

/-- The complaint that a value has a class which the code does not store. -/
def unsuitable (c : Code) (v : Value) : Error := .unsuitableValue c v.tag

/-- The word that stores an integer value. Only the 64-bit codes let it wrap. -/
def integerWord (c : Code) (v : Value) : Except Error UInt64 :=
  match v.integer? with
  | none => .error (c.unsuitable v)
  | some n =>
    if c.width = 8 ∨ (c.lowest ≤ n ∧ n ≤ c.highest) then .ok (UInt64.ofInt n)
    else .error (.outOfRange c n)

/-- The word that stores a floating-point value. -/
def floatWord (c : Code) (v : Value) : Except Error UInt64 :=
  match v.float? with
  | none => .error (c.unsuitable v)
  | some x =>
    if c.width = 4 then
      let narrowed := x.narrow
      if x.isFinite && !narrowed.isFinite then .error (.floatTooLarge c)
      else .ok narrowed.bits.toUInt64
    else .ok x.bits

/-- The data of a value that a string code stores. -/
def stringData (c : Code) (v : Value) : Except Error Bytes :=
  match v.bytes? with
  | none => .error (c.unsuitable v)
  | some bs => .ok bs

/-- Data cut or filled to the length of its unit. -/
def fixedUnit (unitLength : Nat) (data : Bytes) : Bytes :=
  data.take unitLength ++ fill (unitLength - data.length)

/-- The data bytes that a unit with a length byte has room for. -/
def pascalRoom (unitLength : Nat) (data : Bytes) : Nat :=
  min (min data.length (unitLength - 1)) pascalLimit

/-- A length byte, the data it announces, and fill up to the length of the unit. -/
def pascalUnit (unitLength : Nat) (data : Bytes) : Bytes :=
  let n := pascalRoom unitLength data
  UInt8.ofNat n :: data.take n ++ fill (unitLength - (n + 1))

/-- The bytes of one unit. Numbers have the width of their code; pads and strings
have the given length. -/
def encode (c : Code) (unitLength : Nat) (order : ByteOrder) (v : Value) : Except Error Bytes :=
  match c.kind with
  | .pad => .ok (fill unitLength)
  | .signed | .unsigned => (c.integerWord v).map (Word.toBytes c.width order)
  | .float => (c.floatWord v).map (Word.toBytes c.width order)
  | .fixedString => (c.stringData v).map (fixedUnit unitLength)
  | .pascalString => (c.stringData v).map (pascalUnit unitLength)

/-- The data behind a length byte, as much of it as there is. -/
def pascalData : Bytes → Option Bytes
  | [] => none
  | n :: data => some (data.take n.toNat)

/-- The value of one unit. Pads have none, nor has a string without its length byte. -/
def decode (c : Code) (order : ByteOrder) (unit : Bytes) : Option Value :=
  match c.kind with
  | .pad => none
  | .signed => some (.int (Word.signExtend c.width (Word.ofBytes order unit)))
  | .unsigned => some (.uint (Word.ofBytes order unit))
  | .float =>
    let w := Word.ofBytes order unit
    some (.float (if c.width = 4 then Binary32.widen ⟨w.toUInt32⟩ else ⟨w⟩))
  | .fixedString => some (.bytes unit)
  | .pascalString => (pascalData unit).map .bytes

end Code
end BinaryRecord
