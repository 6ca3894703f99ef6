import BinaryRecord.Json.Print
import BinaryRecord.Layout.Basic

/-!
# Values in JSON

The JSON form of a value carries no tag: integers and floating-point numbers are
numbers and byte strings are arrays of numbers. Reading it without knowing the slot
takes the first class that fits; reading it for a slot asks for what the slot's code
stores.

## Main definitions

* `Value.toJson`, `Value.ofJson?`: the form without reference to a slot.
* `Code.readItem`, `Layout.readItems`: JSON items read for the slots of a layout.
-/

namespace BinaryRecord

/-- The JSON number of a byte. -/
def Json.ofByte (b : UInt8) : Json := .number (.natural b.toUInt64)

/-- The byte that a JSON value denotes. -/
def Json.byte? : Json → Option UInt8
  | .number n =>
    match n.uint64? with
    | some w => if w.toNat < 256 then some w.toUInt8 else none
    | none => none
  | _ => none

namespace Value

/-- The JSON form of a value. -/
def toJson : Value → Json
  | int n => .number (.ofInt64 n)
  | uint n => .number (.natural n)
  | float x => .ofBinary64 x
  | bytes bs => .array (bs.map Json.ofByte)

/-- The JSON form of a value, with byte strings as text. -/
def toTextJson : Value → Json
  | bytes bs => .string (Utf8.decodeLossy bs)
  | v => v.toJson

/-- The JSON form that is asked for. -/
def toJsonAs (text : Bool) (v : Value) : Json := if text then v.toTextJson else v.toJson

/-- The value of a JSON form. Integers are signed if they fit, and unsigned otherwise. -/
def ofJson? : Json → Option Value
  | .number n =>
    match n.int64?, n.uint64? with
    | some i, _ => some (int i)
    | none, some u => some (uint u)
    | none, none => some (float n.toBinary64)
  | .array items => (items.mapM Json.byte?).map bytes
  | _ => none

end Value

/-- The code of its serialised name. -/
def Code.ofJson? (j : Json) : Option Code := j.constantName?.bind Code.ofName?

/-- The byte order of its serialised name. -/
def ByteOrder.ofJson? (j : Json) : Option ByteOrder := j.constantName?.bind ByteOrder.ofName?

/-! ## Items for slots -/

/-- Why a JSON item does not fit a slot. -/
inductive ItemError where
  | notNumber (code : Code) (item : Json)
  | notInteger (code : Code) (item : Json)
  | notByte (item : Json)
  | notString (code : Code) (item : Json)
  | noSlot

/-- The sentence that reports why an item does not fit. -/
def ItemError.message : ItemError → String
  | notNumber c j => s!"type code '{c.char}' expects a number, got {j.render}"
  | notInteger c j => s!"type code '{c.char}' expects an integer, got {j.render}"
  | notByte j => s!"byte string element {j.render} is not in 0..=255"
  | notString c j => s!"type code '{c.char}' expects a string or byte array, got {j.render}"
  | noSlot => "pad fields take no value"

/-- An item that does not fit, and its place. -/
structure Misfit where
  /-- The place of the item, counted from zero. -/
  index : Nat
  /-- What is wrong with it. -/
  cause : ItemError

namespace Code

/-- The integer of a JSON number, in the class that the code prefers. -/
def readInteger? (c : Code) (n : JsonNumber) : Option Value :=
  match n.int64?, n.uint64? with
  | some i, some u => some (if c.isSigned then .int i else .uint u)
  | some i, none => some (.int i)
  | none, some u => some (.uint u)
  | none, none => none

/-- The byte strings' elements; the first that is no byte counts. -/
def readBytes (items : List Json) : Except ItemError Bytes :=
  items.mapM fun j =>
    match j.byte? with
    | some b => .ok b
    | none => .error (.notByte j)

/-- The value of a JSON item in a slot of the code. -/
def readItem (c : Code) (item : Json) : Except ItemError Value :=
  match c.kind with
  | .float =>
    match item with
    | .number n => .ok (.float n.toBinary64)
    | _ => .error (.notNumber c item)
  | .signed | .unsigned =>
    match item with
    | .number n =>
      match c.readInteger? n with
      | some v => .ok v
      | none => .error (.notInteger c item)
    | _ => .error (.notInteger c item)
  | .fixedString | .pascalString =>
    match item with
    | .string s => .ok (.ofString s)
    | .array items => (readBytes items).map .bytes
    | _ => .error (.notString c item)
  | .pad => .error .noSlot

end Code

namespace Layout

/-- Reads items for slots, counting from `index`. -/
def readSlots (index : Nat) : List (Group × Json) → Except Misfit (List Value)
  | [] => .ok []
  | (g, item) :: rest =>
    match g.code.readItem item with
    | .error cause => .error ⟨index, cause⟩
    | .ok v => (readSlots (index + 1) rest).map (v :: ·)

/-- The values of JSON items in the slots of the layout. Items beyond the last slot
are not looked at. -/
def readItems (layout : Layout) (items : List Json) : Except Misfit (List Value) :=
  readSlots 0 ((layout.firstSlots items.length).zip items)

end Layout
end BinaryRecord
