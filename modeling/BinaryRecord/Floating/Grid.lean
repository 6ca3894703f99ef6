/-!
# The grid of non-negative binary floating-point values

The finite non-negative values of a binary format lie on a grid whose points are
numbered by their bit patterns: the pattern without its sign grows with the
value. A format is given by the number of stored fraction bits, and values are
counted in units of its smallest positive value, so every finite value is a
natural number of units. Nothing here has a largest exponent; a caller cuts the
grid off at infinity.

## Main definitions

* `Grid.units`: the value of a pattern.
* `Grid.nearest`: the pattern nearest to a quotient, ties to the even pattern.
-/

namespace BinaryRecord.Grid

-- Powers are those of the core library, whatever else is imported beside this module.
attribute [local instance (2000)] instPowNat

/-- The value of the pattern `m`, in units of the smallest positive value. -/
def units (fraction m : Nat) : Nat :=
  if m < 2 ^ fraction then m
  else (2 ^ fraction + m % 2 ^ fraction) * 2 ^ (m / 2 ^ fraction - 1)

/-- The integer nearest to `num / den`; a half goes to the even neighbour. -/
def roundQuotient (num den : Nat) : Nat :=
  let q := num / den
  let r := num % den
  if 2 * r < den then q
  else if den < 2 * r then q + 1
  else q + q % 2

/-- The pattern whose value is nearest to `num / den` units, a tie going to the
even pattern. The quotient is rounded to a multiple of the spacing of the binade
that holds it; a carry out of the fraction lands on the next binade by itself. -/
def nearest (fraction num den : Nat) : Nat :=
  let binade := Nat.log2 (num / den) - fraction
  binade * 2 ^ fraction + roundQuotient num (den * 2 ^ binade)

end BinaryRecord.Grid
