import BinaryRecord.Json.Token
import BinaryRecord.Text.Utf8

/-!
# Reading JSON

Tokens are taken one by one while a stack holds the arrays and objects that are
open. The stage says what may come next; a text is accepted if it ends right
behind one complete value. Nesting is limited.

## Main definitions

* `Json.parseTree?`: the tree of a text with all members as written.
* `Json.parse?`, `Json.parseBytes?`: the normalized tree of a text.
-/

namespace BinaryRecord

/-- An open array or object, with what it holds so far, last first. -/
inductive JsonFrame where
  | array (reversed : List Json)
  | object (reversed : List (String × Json))
  /-- An object before the value of a key. -/
  | member (reversed : List (String × Json)) (key : String)

/-- What may come next in a JSON text. -/
inductive JsonStage where
  /-- A value. -/
  | value (frames : List JsonFrame)
  /-- The first item of an array, or its end. -/
  | firstItem (frames : List JsonFrame)
  /-- The first key of an object, or its end. -/
  | firstKey (frames : List JsonFrame)
  /-- A key. -/
  | key (frames : List JsonFrame)
  /-- The colon behind a key. -/
  | colon (frames : List JsonFrame) (key : String)
  /-- A comma, or the end of the innermost array or object. -/
  | next (frames : List JsonFrame)
  /-- Nothing. -/
  | done (v : Json)

namespace JsonStage

/-- Arrays and objects must not lie this deep inside each other. -/
def depthLimit : Nat := 128

/-- Puts a complete value where it belongs. -/
def place (v : Json) : List JsonFrame → Option JsonStage
  | [] => some (done v)
  | .array items :: frames => some (next (.array (v :: items) :: frames))
  | .member members k :: frames => some (next (.object ((k, v) :: members) :: frames))
  | .object _ :: _ => none

/-- Takes the first token of a value. -/
def begin (frames : List JsonFrame) : JsonToken → Option JsonStage
  | .scalar v => place v frames
  | .string s => place (.string s) frames
  | .openArray =>
    if frames.length + 1 < depthLimit then some (firstItem (.array [] :: frames)) else none
  | .openObject =>
    if frames.length + 1 < depthLimit then some (firstKey (.object [] :: frames)) else none
  | _ => none

/-- Takes one token. -/
def step : JsonStage → JsonToken → Option JsonStage
  | value frames, t => begin frames t
  | firstItem (.array [] :: frames), .closeArray => place (.array []) frames
  | firstItem frames, t => begin frames t
  | firstKey (.object [] :: frames), .closeObject => place (.object []) frames
  | firstKey frames, .string k => some (colon frames k)
  | key frames, .string k => some (colon frames k)
  | colon (.object members :: frames) k, .colon => some (value (.member members k :: frames))
  | next (.array items :: frames), .comma => some (value (.array items :: frames))
  | next (.array items :: frames), .closeArray => place (.array items.reverse) frames
  | next (.object members :: frames), .comma => some (key (.object members :: frames))
  | next (.object members :: frames), .closeObject => place (.object members.reverse) frames
  | _, _ => none

/-- The value, if it is complete. -/
def result? : JsonStage → Option Json
  | done v => some v
  | _ => none

end JsonStage

namespace Json

/-- The tree of a JSON text, with the members of objects as they are written. -/
def parseTree? (text : List Char) : Option Json := do
  let stage ← (← tokens? text).foldlM JsonStage.step (.value [])
  stage.result?

/-- The normalized tree of a JSON text. -/
def parse? (text : List Char) : Option Json := (parseTree? text).map normalize

/-- The items of an array. -/
def items? : Json → Option (List Json)
  | array items => some items
  | _ => none

/-- The items of the array that a JSON text denotes. -/
def parseItems? (text : List Char) : Option (List Json) := (parse? text).bind items?

/-- The items of the array that a JSON text in UTF-8 denotes. -/
def parseItemsBytes? (bs : Bytes) : Option (List Json) := (Utf8.decode? bs).bind parseItems?

end Json
end BinaryRecord
