import BinaryRecord.Floating.Binary

/-!
# Reading decimal numbers

A decimal number is read in two roundings. Its leading digits make a 64-bit
significand, which is rounded to the nearest binary value; that value is then
multiplied or divided by the nearest binary value of a power of ten and rounded
again. The answer is the nearest value whenever both factors are exact, and may
otherwise miss it by the last bit.

## Main definitions

* `Decimal`: a significand and a power of ten.
* `Decimal.ofDigits`: the significand kept from written digits.
* `Decimal.toBinary64?`: the value, unless it is too large.
-/

namespace BinaryRecord

-- Powers are those of the core library, whatever else is imported beside this module.
attribute [local instance (2000)] instPowNat

/-- The number `significand * 10 ^ exponent`. -/
structure Decimal where
  /-- The digits that fit a 64-bit word. -/
  significand : Nat
  /-- The power of ten. -/
  exponent : Int
  deriving DecidableEq, Repr

namespace Decimal

/-- The significands that are kept lie below this. -/
def significandBound : Nat := UInt64.size

/-- The largest power of ten used as one factor. -/
def maxPower : Nat := 308

/-- Takes integer digits as long as they fit; each further one counts as a factor of ten. -/
def pushInteger (d : Decimal) : List Nat → Decimal
  | [] => d
  | n :: ns =>
    if d.significand * 10 + n < significandBound then
      pushInteger { d with significand := d.significand * 10 + n } ns
    else { d with exponent := d.exponent + (ns.length + 1) }

/-- Takes fraction digits as long as they fit and drops the others. -/
def pushFraction (d : Decimal) : List Nat → Decimal
  | [] => d
  | n :: ns =>
    if d.significand * 10 + n < significandBound then
      pushFraction ⟨d.significand * 10 + n, d.exponent - 1⟩ ns
    else d

/-- The number written with the given integer digits, fraction digits and exponent. -/
def ofDigits (integer fraction : List Nat) (exponent : Int) : Decimal :=
  let d := pushFraction (pushInteger ⟨0, 0⟩ integer) fraction
  { d with exponent := d.exponent + exponent }

/-- The nearest binary value of `10 ^ n`, in units. -/
def powerUnits (n : Nat) : Nat :=
  Grid.units Binary64.fraction (Binary64.round (10 ^ n * Binary64.unitsInOne) 1)

/-- A magnitude pattern divided by `10 ^ n` in one rounding, for `n` up to `maxPower`. -/
def dividePower (m n : Nat) : Nat :=
  Binary64.divMagnitude (Grid.units Binary64.fraction m) (powerUnits n)

/-- A magnitude pattern divided `steps` times by the largest single factor. -/
def descend : (steps : Nat) → (m : Nat) → Nat
  | 0, m => m
  | steps + 1, m => if m = 0 then 0 else descend steps (dividePower m maxPower)

/-- A finite magnitude pattern scaled by a power of ten. Division goes in steps, the
last of which is the smallest; multiplication by more than one factor, or beyond the
largest finite value, has no result. -/
def scale? (m : Nat) (exponent : Int) : Option Nat :=
  if 0 ≤ exponent then
    if m = 0 then some 0
    else if exponent ≤ maxPower then
      let product :=
        Binary64.mulMagnitude (Grid.units Binary64.fraction m) (powerUnits exponent.toNat)
      if product < Binary64.infinity then some product else none
    else none
  else
    let n := exponent.natAbs
    let steps := (n - 1) / maxPower
    some (dividePower (descend steps m) (n - steps * maxPower))

/-- The binary value of a decimal number with the given sign. -/
def toBinary64? (negative : Bool) (d : Decimal) : Option Binary64 :=
  (scale? (Binary64.round (d.significand * Binary64.unitsInOne) 1) d.exponent).map
    (Binary64.ofMagnitude negative)

end Decimal
end BinaryRecord
