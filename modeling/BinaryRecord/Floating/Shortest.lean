import BinaryRecord.Floating.Decimal

/-!
# The shortest decimal that reads back

The reals that round to a finite positive number form an interval around it, with
its ends included exactly if the pattern is even. Decimal grids are tried from
the coarsest to the finest; on each only the two neighbours of the number can be
the nearest point, and the first grid with a point in the interval wins. Of two
such points the nearer is taken, of two equally near the even one.
-/

namespace BinaryRecord.Binary64

-- Powers are those of the core library, whatever else is imported beside this module.
attribute [local instance (2000)] instPowNat

/-- The exponent of the coarsest grid tried: `10 ^ 309` is above every number. -/
def coarsestExponent : Int := 309

/-- The number of grids tried; the last has a point in every interval. -/
def gridCount : Nat := 640

/-- The integer multiple of `10 ^ k` nearest to a number among those that round to it.
All quantities are in halves of a unit, multiplied by `10 ^ -k` if `k` is negative. -/
def gridPoint? (m : Nat) (k : Int) : Option Nat :=
  let factor := 10 ^ (-k).toNat
  let step := 10 ^ k.toNat * (2 * unitsInOne)
  let below := Grid.units fraction (m - 1)
  let here := Grid.units fraction m
  let above := Grid.units fraction (m + 1)
  let low := (below + here) * factor
  let value := 2 * here * factor
  let high := (here + above) * factor
  let inside (d : Nat) : Bool :=
    if m % 2 = 0 then low ≤ d * step ∧ d * step ≤ high
    else low < d * step ∧ d * step < high
  let down := value / step
  let up := down + 1
  match inside down, inside up with
  | false, false => none
  | true, false => some down
  | false, true => some up
  | true, true =>
    if 2 * value < (down + up) * step then some down
    else if (down + up) * step < 2 * value then some up
    else some (if down % 2 = 0 then down else up)

/-- The shortest decimal that rounds to the positive finite magnitude pattern `m`. -/
def shortest (m : Nat) : Decimal :=
  let hit (i : Nat) : Option Decimal :=
    let k := coarsestExponent - i
    (gridPoint? m k).map fun d => ⟨d, k⟩
  ((List.range gridCount).findSome? hit).getD ⟨0, 0⟩

end BinaryRecord.Binary64
