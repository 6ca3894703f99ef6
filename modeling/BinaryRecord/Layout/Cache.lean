import BinaryRecord.Layout.Format

/-!
# A cache of formats

Formats that have been read are kept under their texts and shared. Each reading gets a
serial number of its own, so two answers are the same shared format exactly if
their numbers agree. A cache has a capacity; once it is full, further formats are
read each time they are asked for. Formats that cannot be read are never kept.

## Main definitions

* `Cache.get`: the shared format of a text.
* `Cache.clear`: forgets all formats.
* `Cache.pack`, `Cache.unpack`, …: the operations of the library behind a cache.
-/

namespace BinaryRecord

/-- A format under the number of its reading. -/
structure SharedFormat where
  /-- The number of the reading. -/
  serial : Nat
  /-- What was read. -/
  format : Format

/-- Formats kept under keys, which are the texts they were asked for by. -/
structure Cache where
  /-- The most formats that are kept. -/
  capacity : Nat
  /-- The formats kept and their keys, in the order in which they came. -/
  entries : List (String × SharedFormat)
  /-- The number of the next reading. -/
  nextSerial : Nat

namespace Cache

/-- The number of formats that a cache keeps unless told otherwise. -/
def usualCapacity : Nat := 1024

/-- A cache without formats. -/
def empty (capacity : Nat) : Cache := ⟨capacity, [], 0⟩

instance : Inhabited Cache := ⟨empty usualCapacity⟩

/-- The format kept under a text as its key. -/
def find? (c : Cache) (text : String) : Option SharedFormat := c.entries.lookup text

/-- Numbers a new reading and keeps it under its key if there is room. -/
def enroll (c : Cache) (key : String) (format : Format) : SharedFormat × Cache :=
  let shared : SharedFormat := ⟨c.nextSerial, format⟩
  let entries := if c.entries.length < c.capacity then c.entries ++ [(key, shared)] else c.entries
  (shared, { c with entries, nextSerial := c.nextSerial + 1 })

/-- The shared format of a text, read now if none is kept. -/
def get (c : Cache) (text : String) : Except Error SharedFormat × Cache :=
  match c.find? text with
  | some shared => (.ok shared, c)
  | none =>
    match Format.parse text with
    | .error e => (.error e, c)
    | .ok format =>
      let (shared, c) := c.enroll text format
      (.ok shared, c)

/-- The number of formats kept. -/
def size (c : Cache) : Nat := c.entries.length

/-- Are no formats kept? -/
def isEmpty (c : Cache) : Bool := c.entries.isEmpty

/-- Forgets all formats. -/
def clear (c : Cache) : Cache := { c with entries := [] }

/-! ## Operations on a format's text -/

/-- Applies an operation to the layout of a text. -/
def withLayout {α : Type} (c : Cache) (text : String) (f : Layout → Except Error α) :
    Except Error α × Cache :=
  let (shared, c) := c.get text
  (shared.bind fun s => f s.format.layout, c)

/-- Bytes that a format covers. -/
def byteLength (c : Cache) (text : String) : Except Error Nat × Cache :=
  c.withLayout text fun layout => .ok layout.byteLength

/-- Packs values by a format. -/
def pack (c : Cache) (text : String) (mode : Mode) (vs : List Value) :
    Except Error Bytes × Cache :=
  c.withLayout text (·.pack mode vs)

/-- Unpacks bytes by a format. -/
def unpack (c : Cache) (text : String) (mode : Mode) (bs : Bytes) :
    Except Error (List Value) × Cache :=
  c.withLayout text (·.unpack mode bs)

/-- Unpacks bytes from an offset on by a format. -/
def unpackAt (c : Cache) (text : String) (mode : Mode) (offset : Nat) (bs : Bytes) :
    Except Error (List Value) × Cache :=
  c.withLayout text (·.unpackAt mode offset bs)

/-- Packs values into a buffer by a format. Gives the number of bytes written, the
buffer afterwards and the cache afterwards. -/
def packAt (c : Cache) (text : String) (mode : Mode) (offset : Nat) (vs : List Value)
    (buffer : Bytes) : Except Error Nat × Bytes × Cache :=
  match c.get text with
  | (.error e, c) => (.error e, buffer, c)
  | (.ok shared, c) =>
    let (result, buffer) := shared.format.layout.packAt mode offset vs buffer
    (result, buffer, c)

end Cache
end BinaryRecord
