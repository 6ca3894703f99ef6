import BinaryRecord.Floating.Binary

/-!
# JSON values

The tree form of a JSON text. Numbers keep apart what 64-bit words can hold exactly
and what is held in floating point, and a floating-point number is finite. Objects
keep their members in the order given, so the tree can hold a key twice;
`Json.normalize` sorts the members and lets the last of several win.
-/

namespace BinaryRecord

/-- A JSON number. -/
inductive JsonNumber where
  /-- A non-negative integer below `2 ^ 64`. -/
  | natural (n : UInt64)
  /-- A negative integer not below `-2 ^ 63`. -/
  | negative (n : Int64) (lt_zero : n < 0)
  /-- Any other number, rounded. -/
  | float (x : Binary64) (finite : x.isFinite = true)
  deriving DecidableEq

namespace JsonNumber

/-- The number of a signed word. -/
def ofInt64 (n : Int64) : JsonNumber :=
  if h : n < 0 then negative n h else natural n.toUInt64

/-- The number as a signed word, if it is an integer that fits. -/
def int64? : JsonNumber → Option Int64
  | natural n => if n < 0x8000000000000000 then some n.toInt64 else none
  | negative n _ => some n
  | float .. => none

/-- The number as an unsigned word, if it is an integer that fits. -/
def uint64? : JsonNumber → Option UInt64
  | natural n => some n
  | negative .. | float .. => none

/-- The number in floating point; integers are rounded. -/
def toBinary64 : JsonNumber → Binary64
  | natural n => .ofInt n.toNat
  | negative n _ => .ofInt n.toInt
  | float x _ => x

end JsonNumber

/-- A JSON value. -/
inductive Json where
  | null
  | bool (b : Bool)
  | number (n : JsonNumber)
  | string (s : String)
  | array (items : List Json)
  | object (members : List (String × Json))

namespace Json

/-- The number of a floating-point value; what is not finite has none and is null. -/
def ofBinary64 (x : Binary64) : Json :=
  if h : x.isFinite = true then number (.float x h) else null

/-- Puts a member into a list sorted by keys, in the place of one with the same key. -/
def insertMember (key : String) (value : Json) : List (String × Json) → List (String × Json)
  | [] => [(key, value)]
  | (k, v) :: rest =>
    if key < k then (key, value) :: (k, v) :: rest
    else if key = k then (key, value) :: rest
    else (k, v) :: insertMember key value rest

mutual
/-- Sorts the members of all objects by their keys; of equal keys the last wins. -/
def normalize : Json → Json
  | array items => array (normalizeItems items)
  | object members => object (normalizeMembers members [])
  | v => v

/-- Normalizes each item. -/
def normalizeItems : List Json → List Json
  | [] => []
  | v :: items => normalize v :: normalizeItems items

/-- Normalizes the members and puts them into those sorted so far. -/
def normalizeMembers : List (String × Json) → List (String × Json) → List (String × Json)
  | [], sorted => sorted
  | (k, v) :: members, sorted => normalizeMembers members (insertMember k (normalize v) sorted)
end

/-- The name in the serialised form of a constant: the name alone, or an object that
maps it to null. -/
def constantName? : Json → Option String
  | string s => some s
  | object [(s, null)] => some s
  | _ => none

end Json
end BinaryRecord
