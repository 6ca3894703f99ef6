/-!
# Type codes

A type code is a letter of the format language. It fixes how one unit of a record
is stored: its class and, for numbers, its width in bytes.
-/

namespace BinaryRecord

/-- How a unit is stored. -/
inductive Kind where
  /-- Zero bytes that carry no value. -/
  | pad
  /-- A two's-complement integer. -/
  | signed
  /-- A non-negative integer. -/
  | unsigned
  /-- A binary floating-point number. -/
  | float
  /-- A byte string of fixed length. -/
  | fixedString
  /-- A byte string behind a byte that gives its length. -/
  | pascalString
  deriving DecidableEq, Repr

/-- A letter of the format language. -/
inductive Code where
  | pad
  | int8
  | uint8
  | int16
  | uint16
  | int32
  | uint32
  | long
  | ulong
  | int64
  | uint64
  | float32
  | float64
  | fixedString
  | pascalString
  deriving DecidableEq, Repr

namespace Kind

/-- The name in listings of the code table. -/
def name : Kind → String
  | pad => "Pad"
  | signed => "Signed"
  | unsigned => "Unsigned"
  | float => "Float"
  | fixedString => "Str"
  | pascalString => "Pascal"

end Kind

namespace Code

/-- What the code table holds for one code. -/
structure Entry where
  /-- The letter in a format. -/
  char : Char
  /-- The name in the serialised form. -/
  name : String
  /-- Bytes of one element. -/
  width : Nat
  /-- The class of the unit. -/
  kind : Kind
  deriving DecidableEq, Repr

/-- The code table. -/
def entry : Code → Entry
  | pad => ⟨'x', "Pad", 1, .pad⟩
  | int8 => ⟨'b', "I8", 1, .signed⟩
  | uint8 => ⟨'B', "U8", 1, .unsigned⟩
  | int16 => ⟨'h', "I16", 2, .signed⟩
  | uint16 => ⟨'H', "U16", 2, .unsigned⟩
  | int32 => ⟨'i', "I32", 4, .signed⟩
  | uint32 => ⟨'I', "U32", 4, .unsigned⟩
  | long => ⟨'l', "Long", 4, .signed⟩
  | ulong => ⟨'L', "ULong", 4, .unsigned⟩
  | int64 => ⟨'q', "I64", 8, .signed⟩
  | uint64 => ⟨'Q', "U64", 8, .unsigned⟩
  | float32 => ⟨'f', "F32", 4, .float⟩
  | float64 => ⟨'d', "F64", 8, .float⟩
  | fixedString => ⟨'s', "Str", 1, .fixedString⟩
  | pascalString => ⟨'p', "Pascal", 1, .pascalString⟩

/-- The letter in a format. -/
def char (c : Code) : Char := c.entry.char

/-- The name in the serialised form. -/
def name (c : Code) : String := c.entry.name

/-- Bytes of one element. -/
def width (c : Code) : Nat := c.entry.width

/-- The class of the unit. -/
def kind (c : Code) : Kind := c.entry.kind

/-- All codes, in table order. -/
def all : List Code :=
  [pad, int8, uint8, int16, uint16, int32, uint32, long, ulong, int64, uint64,
   float32, float64, fixedString, pascalString]

theorem mem_all (c : Code) : c ∈ all := by cases c <;> decide

/-- The place of the code in the table. -/
def index (c : Code) : Nat := all.idxOf c

/-- The letters of all codes, in table order. -/
def chars : String := String.ofList (all.map char)

/-- The code that a letter stands for. -/
def ofChar? (c : Char) : Option Code := all.find? (·.char = c)

/-- The code of a serialised name. -/
def ofName? (s : String) : Option Code := all.find? (·.name = s)

@[simp] theorem ofChar?_char (c : Code) : ofChar? c.char = some c := by cases c <;> rfl

theorem ofChar?_eq_some_iff {c : Char} {code : Code} :
    ofChar? c = some code ↔ code.char = c := by
  constructor
  · intro h
    simpa using List.find?_some h
  · rintro rfl
    exact ofChar?_char code

/-- Is the repeat count of the code a length, not a number of values? -/
def isString (c : Code) : Bool :=
  match c with
  | fixedString | pascalString => true
  | _ => false

/-- Does the code take up bytes without a value? -/
def isPad (c : Code) : Bool := c = pad

/-- Is the code that of a two's-complement integer? -/
def isSigned (c : Code) : Bool := c.kind = .signed

end Code
end BinaryRecord
