import BinaryRecord.Layout.Format

/-!
# Probes

Checks that take arbitrary bytes, make a format and a payload of them, and tell
whether the operations behave on these. The format ends at the first zero byte; the
payload is what follows it.
-/

namespace BinaryRecord.Probe

/-- The text before the first zero byte, and the bytes behind it. -/
def split (data : Bytes) : String × Bytes :=
  (Utf8.decodeLossy (data.takeWhile (· ≠ 0)), (data.dropWhile (· ≠ 0)).drop 1)

/-- Reading a format of arbitrary bytes comes to an end. -/
def parse (data : Bytes) : Bool :=
  match Layout.parse (Utf8.decodeLossy data) with
  | .error _ => true
  | .ok layout => layout.byteLength ≤ byteLimit

/-- Strict unpacking fails only where loose unpacking does not give all values. -/
def unpack (data : Bytes) : Bool :=
  let (text, payload) := split data
  match Layout.parse text with
  | .error _ => true
  | .ok layout =>
    match layout.unpack .strict payload, layout.unpack .loose payload with
    | .ok vs, .ok ws => vs = ws
    | .error e, .ok _ => e.isShortage
    | _, .error _ => false

/-- Packing what was unpacked gives no more bytes than the layout covers. -/
def roundTrip (data : Bytes) : Bool :=
  let (text, payload) := split data
  match Layout.parse text with
  | .error _ => true
  | .ok layout =>
    match layout.unpack .loose payload with
    | .error _ => true
    | .ok vs =>
      match layout.pack .loose vs with
      | .error _ => true
      | .ok packed => packed.length ≤ layout.byteLength

end BinaryRecord.Probe
