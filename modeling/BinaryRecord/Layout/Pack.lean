import BinaryRecord.Layout.Basic

/-!
# Packing

Values become bytes, group by group. A group is stored only if values are left for
all its slots; pad groups need none. Strict packing demands values for the whole
layout before it starts, loose packing ends at the first group not covered. Values
beyond the last slot are ignored.

## Main definitions

* `Layout.packScan`: the bytes of the groups that the values cover.
* `Layout.pack`: packing in a mode.
* `Layout.packedLength`: how long the output is, told from the number of values.
* `Layout.packAt`: packing into a part of a buffer.
-/

namespace BinaryRecord.Layout

/-- The bytes of the groups up to the first one that the values do not cover, and
what was lacking there. -/
def packScan : Layout → List Value → Except Error (Bytes × Option Shortage)
  | [], _ => .ok ([], none)
  | g :: layout, vs =>
    if g.code.isPad then do
      let (rest, stop) ← packScan layout vs
      return (fill g.byteLength ++ rest, stop)
    else if vs.length < g.valueCount then
      .ok ([], some ⟨g.code, vs.length, g.valueCount⟩)
    else do
      let bytes ← g.encode (vs.take g.valueCount)
      let (rest, stop) ← packScan layout (vs.drop g.valueCount)
      return (bytes ++ rest, stop)

/-- Packs values and tells where loose packing stopped. -/
def packReporting (layout : Layout) (mode : Mode) (vs : List Value) :
    Except Error (Bytes × Option Shortage) :=
  if mode.isStrict && vs.length < layout.valueCount then
    .error (.tooFewValues layout.valueCount vs.length)
  else layout.packScan vs

/-- Packs values. -/
def pack (layout : Layout) (mode : Mode) (vs : List Value) : Except Error Bytes :=
  (layout.packReporting mode vs).map (·.1)

/-- The length of what `available` values pack to: that of the groups they cover. -/
def packedLength : Layout → (available : Nat) → Nat
  | [], _ => 0
  | g :: layout, n =>
    if g.code.isPad then g.byteLength + packedLength layout n
    else if n < g.valueCount then 0
    else g.byteLength + packedLength layout (n - g.valueCount)

/-- A buffer with the bytes from `offset` on replaced by `bytes`. -/
def overwrite (buffer : Bytes) (offset : Nat) (bytes : Bytes) : Bytes :=
  buffer.take offset ++ bytes ++ buffer.drop (offset + bytes.length)

/-- Packs values into a buffer from an offset on. Gives the number of bytes written
and the buffer afterwards, which is unchanged after an error. -/
def packAt (layout : Layout) (mode : Mode) (offset : Nat) (vs : List Value) (buffer : Bytes) :
    Except Error Nat × Bytes :=
  match layout.pack mode vs with
  | .error e => (.error e, buffer)
  | .ok packed =>
    if offset ≤ buffer.length ∧ packed.length ≤ buffer.length - offset then
      (.ok packed.length, overwrite buffer offset packed)
    else (.error (.noRoom packed.length (buffer.length - offset)), buffer)

end BinaryRecord.Layout
