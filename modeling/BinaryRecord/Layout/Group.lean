import BinaryRecord.Code.Encoding

/-!
# Groups

A group is one item of a format: a type code with its repeat count, under the
byte order in force. The count of a string code is the length of one string; that
of any other code is a number of units.
-/

namespace BinaryRecord

/-- A type code with its repeat count. -/
structure Group where
  /-- The repeat count, for string codes the length of the string. -/
  count : Nat
  /-- The type code. -/
  code : Code
  /-- The byte order in force. -/
  order : ByteOrder
  /-- Bytes of one element. -/
  size : Nat
  deriving DecidableEq, Repr

namespace Group

/-- The group of a code with the element size that the code table gives. -/
def ofCode (count : Nat) (code : Code) (order : ByteOrder) : Group :=
  ⟨count, code, order, code.width⟩

/-- Bytes that the group covers. -/
def byteLength (g : Group) : Nat := g.count * g.size

/-- Units that are stored one after the other. -/
def units (g : Group) : Nat := if g.code.isString then 1 else g.count

/-- Bytes of one unit. -/
def unitLength (g : Group) : Nat := if g.code.isString then g.byteLength else g.size

/-- Values that the group takes up. -/
def valueCount (g : Group) : Nat := if g.code.isPad then 0 else g.units

theorem units_mul_unitLength (g : Group) : g.units * g.unitLength = g.byteLength := by
  simp only [units, unitLength]
  split <;> simp [byteLength]

/-- The bytes of values for the group's units, in order; the first refusal counts. -/
def encode (g : Group) (vs : List Value) : Except Error Bytes :=
  (vs.mapM (g.code.encode g.unitLength g.order)).map List.flatten

/-- Cuts a byte string into a number of pieces of one length. -/
def cut (length : Nat) : (pieces : Nat) → Bytes → List Bytes
  | 0, _ => []
  | n + 1, bs => bs.take length :: cut length n (bs.drop length)

/-- The values in the bytes of the group. -/
def decode (g : Group) (bs : Bytes) : List Value :=
  (cut g.unitLength g.units bs).filterMap (g.code.decode g.order)

end Group
end BinaryRecord
