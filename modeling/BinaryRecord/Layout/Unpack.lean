import BinaryRecord.Layout.Basic

/-!
# Unpacking

Bytes become values, group by group, pads giving none. A group is read only if all
its bytes are there. Strict unpacking fails if some group is not covered and then
reports the totals; loose unpacking gives the values before that group. Bytes
behind the last group are ignored.

## Main definitions

* `Layout.unpackScan`: the values of the groups that the bytes cover.
* `Layout.unpack`: unpacking in a mode.
* `Layout.unpackAt`: unpacking from an offset.
-/

namespace BinaryRecord.Layout

/-- The values of the groups up to the first one that the bytes do not cover, and
what was lacking there. -/
def unpackScan : Layout → Bytes → List Value × Option Shortage
  | [], _ => ([], none)
  | g :: layout, bs =>
    if bs.length < g.byteLength then ([], some ⟨g.code, bs.length, g.byteLength⟩)
    else
      let (rest, stop) := unpackScan layout (bs.drop g.byteLength)
      (g.decode (bs.take g.byteLength) ++ rest, stop)

/-- Unpacks bytes and tells where loose unpacking stopped. -/
def unpackReporting (layout : Layout) (mode : Mode) (bs : Bytes) :
    Except Error (List Value × Option Shortage) :=
  let scanned := layout.unpackScan bs
  if mode.isStrict && scanned.2.isSome then
    .error (.tooFewBytes layout.byteLength bs.length)
  else .ok scanned

/-- Unpacks bytes. -/
def unpack (layout : Layout) (mode : Mode) (bs : Bytes) : Except Error (List Value) :=
  (layout.unpackReporting mode bs).map (·.1)

/-- Unpacks the bytes from an offset on and tells where loose unpacking stopped. -/
def unpackAtReporting (layout : Layout) (mode : Mode) (offset : Nat) (bs : Bytes) :
    Except Error (List Value × Option Shortage) :=
  layout.unpackReporting mode (bs.drop offset)

/-- Unpacks the bytes from an offset on; behind the end there are none. -/
def unpackAt (layout : Layout) (mode : Mode) (offset : Nat) (bs : Bytes) :
    Except Error (List Value) :=
  layout.unpack mode (bs.drop offset)

end BinaryRecord.Layout
