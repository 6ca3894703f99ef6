import BinaryRecord.Code.Encoding

/-!
# Writing units

Units are written one behind the other to an output that grows. A unit is put out in pieces, and
what was put out is not taken back, whatever happens afterwards.

## Main definitions

* `Output`: programs that write to an output and may fail.
* `Code.write`: writes one unit.
* `Write`: one unit to be written; `Write.runAll` writes several to one output.
-/

namespace BinaryRecord

/-- Programs that write to an output and may fail. What was put out before stays. -/
abbrev Output (α : Type) : Type := ExceptT Error (StateM Bytes) α

namespace Output

/-- Puts out bytes behind those that are there. -/
def put (bs : Bytes) : Output Unit := modify (· ++ bs)

end Output

open Output

/-- Writes the low `width` bytes of a word: from the high end at once, or from the low end one by
one. -/
def Word.write (width : Nat) (o : ByteOrder) (w : UInt64) : Output Unit :=
  match o with
  | .big => put (toBytes width .big w)
  | .little => (toBytes width .big w).reverse.forM fun b => put [b]

namespace Code

/-- Writes data cut or filled to the length of its unit. -/
def writeFixed (unitLength : Nat) (data : Bytes) : Output Unit := do
  let n := min data.length unitLength
  put (data.take n)
  put (fill (unitLength - n))

/-- Writes a length byte, the data it announces, and fill up to the length of the unit. -/
def writePascal (unitLength : Nat) (data : Bytes) : Output Unit := do
  let n := pascalRoom unitLength data
  put [UInt8.ofNat n]
  put (data.take n)
  put (fill (unitLength - (n + 1)))

/-- Writes the unit of a value. -/
def write (c : Code) (unitLength : Nat) (order : ByteOrder) (v : Value) : Output Unit :=
  match c.kind with
  | .pad => put (fill unitLength)
  | .signed | .unsigned => do Word.write c.width order (← ofExcept (c.integerWord v))
  | .float => do Word.write c.width order (← ofExcept (c.floatWord v))
  | .fixedString => do writeFixed unitLength (← ofExcept (c.stringData v))
  | .pascalString => do writePascal unitLength (← ofExcept (c.stringData v))

end Code

/-- One unit to be written. -/
structure Write where
  /-- The code of the unit. -/
  code : Code
  /-- The length of the unit, for pads and strings. -/
  unitLength : Nat
  /-- The byte order of the unit. -/
  order : ByteOrder
  /-- The value. -/
  value : Value
  deriving DecidableEq, Repr

namespace Write

/-- Writes the unit to an output: how that ended, and the output afterwards. -/
def run (u : Write) (out : Bytes) : Except Error Unit × Bytes :=
  (u.code.write u.unitLength u.order u.value).run out

/-- Writes units to one output, each whether or not those before it failed: how each ended, and
the output in the end. -/
def runAll : List Write → Bytes → List (Except Error Unit) × Bytes
  | [], out => ([], out)
  | u :: us, out =>
    let (r, out) := u.run out
    let (rs, out) := runAll us out
    (r :: rs, out)

end Write
end BinaryRecord
