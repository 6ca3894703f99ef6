import BinaryRecord.Floating.Grid

/-!
# Binary interchange formats of 32 and 64 bits

A floating-point number is its bit pattern, so equality of patterns is finer than
numeric equality: it tells the two zeros apart and finds a NaN equal to itself.
All arithmetic is exact on natural numbers and rounded once, to the nearest
value, ties to even.

## Main definitions

* `Binary64`, `Binary32`: the two formats.
* `Binary64.narrow`, `Binary32.widen`: conversion between them.
* `Binary64.ofInt`, `Binary64.mulMagnitude`, `Binary64.divMagnitude`: rounded arithmetic.
-/

namespace BinaryRecord

-- Powers are those of the core library, whatever else is imported beside this module.
attribute [local instance (2000)] instPowNat

/-- A number of the 64-bit format: a sign, 11 exponent bits, 52 fraction bits. -/
structure Binary64 where
  /-- The bit pattern. -/
  bits : UInt64
  deriving DecidableEq, Repr

/-- A number of the 32-bit format: a sign, 8 exponent bits, 23 fraction bits. -/
structure Binary32 where
  /-- The bit pattern. -/
  bits : UInt32
  deriving DecidableEq, Repr

namespace Binary64

/-- Stored fraction bits. -/
def fraction : Nat := 52

/-- The pattern of positive infinity. -/
def infinity : Nat := 0x7FF0000000000000

/-- The weight of the sign bit. -/
def signBit : Nat := 0x8000000000000000

/-- Units in one: the smallest positive value is `2 ^ -1074`. -/
def unitsInOne : Nat := 2 ^ (1074 : Nat)

/-- Is the sign bit set? -/
def negative (x : Binary64) : Bool := signBit ≤ x.bits.toNat

/-- The pattern without its sign. -/
def magnitude (x : Binary64) : Nat := x.bits.toNat % signBit

/-- The number of the given sign and magnitude pattern. -/
def ofMagnitude (negative : Bool) (m : Nat) : Binary64 :=
  ⟨UInt64.ofNat (m + if negative then signBit else 0)⟩

/-- Neither an infinity nor a NaN. -/
def isFinite (x : Binary64) : Bool := x.magnitude < infinity

/-- Not a number. -/
def isNaN (x : Binary64) : Bool := infinity < x.magnitude

/-- Numeric equality: the zeros are equal and a NaN equals nothing. -/
def numEq (x y : Binary64) : Bool :=
  !x.isNaN && !y.isNaN && (x = y || (x.magnitude = 0 && y.magnitude = 0))

/-- The absolute value of a finite number, in units of `2 ^ -1074`. -/
def units (x : Binary64) : Nat := Grid.units fraction x.magnitude

/-- The magnitude pattern nearest to `num / den` units, cut off at infinity. -/
def round (num den : Nat) : Nat := min infinity (Grid.nearest fraction num den)

/-- The number nearest to an integer. -/
def ofInt (n : Int) : Binary64 := ofMagnitude (n < 0) (round (n.natAbs * unitsInOne) 1)

/-- The rounded product of two magnitudes given in units. -/
def mulMagnitude (a b : Nat) : Nat := round (a * b) unitsInOne

/-- The rounded quotient of two magnitudes given in units. -/
def divMagnitude (a b : Nat) : Nat := round (a * unitsInOne) b

end Binary64

namespace Binary32

/-- Stored fraction bits. -/
def fraction : Nat := 23

/-- The pattern of positive infinity. -/
def infinity : Nat := 0x7F800000

/-- The weight of the sign bit. -/
def signBit : Nat := 0x80000000

/-- Is the sign bit set? -/
def negative (x : Binary32) : Bool := signBit ≤ x.bits.toNat

/-- The pattern without its sign. -/
def magnitude (x : Binary32) : Nat := x.bits.toNat % signBit

/-- The number of the given sign and magnitude pattern. -/
def ofMagnitude (negative : Bool) (m : Nat) : Binary32 :=
  ⟨UInt32.ofNat (m + if negative then signBit else 0)⟩

/-- Neither an infinity nor a NaN. -/
def isFinite (x : Binary32) : Bool := x.magnitude < infinity

/-- Not a number. -/
def isNaN (x : Binary32) : Bool := infinity < x.magnitude

/-- The most significant fraction bit; a NaN without it is signalling. -/
def quietBit : Nat := 0x400000

/-- The absolute value of a finite number, in units of `2 ^ -149`. -/
def units (x : Binary32) : Nat := Grid.units fraction x.magnitude

/-- Units of the 64-bit format in one unit of the 32-bit format. -/
def unitRatio : Nat := 2 ^ (925 : Nat)

end Binary32

/-- The weight of the last fraction bit that a 32-bit NaN keeps of a 64-bit one. -/
def nanShift : Nat := 0x20000000

/-- The nearest number of the 32-bit format. Values too large become infinite. A
NaN keeps its sign and its top 23 fraction bits and is made quiet. -/
def Binary64.narrow (x : Binary64) : Binary32 :=
  .ofMagnitude x.negative <|
    if x.isNaN then
      Binary32.infinity + (((x.magnitude - Binary64.infinity) / nanShift) ||| Binary32.quietBit)
    else if x.isFinite then
      min Binary32.infinity (Grid.nearest Binary32.fraction x.units Binary32.unitRatio)
    else Binary32.infinity

/-- The same number in the 64-bit format. A NaN keeps its sign, its fraction moves
up by 29 bits and it is made quiet. -/
def Binary32.widen (x : Binary32) : Binary64 :=
  .ofMagnitude x.negative <|
    if x.isNaN then
      Binary64.infinity + (((x.magnitude - Binary32.infinity) ||| Binary32.quietBit) * nanShift)
    else if x.isFinite then
      Binary64.round (x.units * Binary32.unitRatio) 1
    else Binary64.infinity

end BinaryRecord
