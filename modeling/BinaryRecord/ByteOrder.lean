/-!
# Byte order

The order in which the bytes of a number lie in a record, and the marker
characters that select it. Native order is least significant byte first.
-/

namespace BinaryRecord

/-- The order in which the bytes of a multi-byte number are stored. -/
inductive ByteOrder where
  /-- Least significant byte first. -/
  | little
  /-- Most significant byte first. -/
  | big
  deriving DecidableEq, Repr

namespace ByteOrder

/-- The order used where a format names none. -/
def native : ByteOrder := .little

instance : Inhabited ByteOrder := ⟨native⟩

/-- Marker of native size and native order. -/
def nativeMarker : Char := '@'

/-- Marker of standard size and native order. -/
def standardMarker : Char := '='

/-- Marker of little-endian order. -/
def littleMarker : Char := '<'

/-- Marker of big-endian order. -/
def bigMarker : Char := '>'

/-- Marker of network order, which is big-endian. -/
def networkMarker : Char := '!'

/-- The order that a marker character selects, if the character is a marker. -/
def ofMarker? (c : Char) : Option ByteOrder :=
  if c = nativeMarker ∨ c = standardMarker then some native
  else if c = littleMarker then some little
  else if c = bigMarker ∨ c = networkMarker then some big
  else none

/-- The marker that names an order without reference to the machine. -/
def marker : ByteOrder → Char
  | little => littleMarker
  | big => bigMarker

@[simp] theorem ofMarker?_marker (o : ByteOrder) : ofMarker? o.marker = some o := by
  cases o <;> decide

/-- The opposite order. -/
def flip : ByteOrder → ByteOrder
  | little => big
  | big => little

@[simp] theorem flip_flip (o : ByteOrder) : o.flip.flip = o := by cases o <;> rfl

/-- The name that listings print. -/
def label : ByteOrder → String
  | little => "little"
  | big => "big"

/-- The name that the serialised form uses. -/
def name : ByteOrder → String
  | little => "Little"
  | big => "Big"

/-- The order of a serialised name. -/
def ofName? (s : String) : Option ByteOrder :=
  [little, big].find? (·.name = s)

end ByteOrder
end BinaryRecord
