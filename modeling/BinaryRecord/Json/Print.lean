import BinaryRecord.Floating.Shortest
import BinaryRecord.Json.Basic

/-!
# Writing JSON

Two forms: the compact one has no blanks, the indented one puts each item on a line
of its own. In strings only what JSON demands is escaped. A floating-point number is
written with the fewest digits that read back, and always shows that it is no integer.

## Main definitions

* `Json.render`: the compact form.
* `Json.renderIndented`: the indented form.
-/

namespace BinaryRecord

/-! ## Numbers -/

/-- Which decimal exponents are written without an exponent mark. -/
structure FloatStyle where
  /-- The least exponent that is written by position. -/
  positionalFrom : Int
  /-- The greatest exponent that is written by position. -/
  positionalTo : Int

/-- JSON numbers are positional from `0.00001` up to 16 digits before the point. -/
def Json.floatStyle : FloatStyle := ⟨-5, 15⟩

namespace FloatStyle

/-- Digits of which the first has the weight `10 ^ exponent`, with a decimal point; at
least one digit stands on either side of the point. -/
def positional (digits : List Char) (exponent : Int) : List Char :=
  if exponent < 0 then
    '0' :: '.' :: List.replicate (-exponent - 1).toNat '0' ++ digits
  else
    let places := exponent.toNat + 1
    let whole := digits.take places ++ List.replicate (places - digits.length) '0'
    let part := digits.drop places
    whole ++ '.' :: (if part = [] then ['0'] else part)

/-- One digit before the point, and the exponent with its sign. -/
def scientific (digits : List Char) (exponent : Int) : List Char :=
  let sign := if exponent < 0 then '-' else '+'
  let part := digits.drop 1
  digits.take 1 ++ (if part = [] then [] else '.' :: part) ++
    'e' :: sign :: Nat.toDigits 10 exponent.natAbs

/-- A positive decimal number. The exponent that decides the form is that of its
first digit; zeros at the end of the significand do not count as digits. -/
def render (style : FloatStyle) (d : Decimal) : List Char :=
  let written := Nat.toDigits 10 d.significand
  let exponent := d.exponent + written.length - 1
  let digits := (written.reverse.dropWhile (· = '0')).reverse
  if style.positionalFrom ≤ exponent ∧ exponent ≤ style.positionalTo then
    positional digits exponent
  else scientific digits exponent

end FloatStyle

/-- A finite floating-point number. -/
def Binary64.render (style : FloatStyle) (x : Binary64) : String :=
  let sign := if x.negative then ['-'] else []
  let body :=
    if x.magnitude = 0 then ['0', '.', '0'] else style.render (Binary64.shortest x.magnitude)
  String.ofList (sign ++ body)

/-- The text of a JSON number. -/
def JsonNumber.render : JsonNumber → String
  | natural n => toString n.toNat
  | negative n _ => toString n.toInt
  | float x _ => x.render Json.floatStyle

namespace Json

/-! ## Strings -/

/-- A character inside a string. -/
def escapeChar (c : Char) : List Char :=
  if c = '"' ∨ c = '\\' then ['\\', c]
  else if c = '\x08' then ['\\', 'b']
  else if c = '\x0c' then ['\\', 'f']
  else if c = '\n' then ['\\', 'n']
  else if c = '\r' then ['\\', 'r']
  else if c = '\t' then ['\\', 't']
  else if c.toNat < 0x20 then
    ['\\', 'u', '0', '0', Nat.digitChar (c.toNat / 16), Nat.digitChar (c.toNat % 16)]
  else [c]

/-- A string in quotes. -/
def quote (s : String) : String :=
  String.ofList ('"' :: s.toList.flatMap escapeChar ++ ['"'])

/-- The text of a truth value. -/
def renderBool (b : Bool) : String := if b then "true" else "false"

/-! ## Trees -/

mutual
/-- The text without blanks. -/
def render : Json → String
  | null => "null"
  | bool b => renderBool b
  | number n => n.render
  | string s => quote s
  | array items => "[" ++ ",".intercalate (renderItems items) ++ "]"
  | object members => "\x7b" ++ ",".intercalate (renderMembers members) ++ "\x7d"

/-- The texts of the items. -/
def renderItems : List Json → List String
  | [] => []
  | v :: items => render v :: renderItems items

/-- The texts of the members. -/
def renderMembers : List (String × Json) → List String
  | [] => []
  | (k, v) :: members => (quote k ++ ":" ++ render v) :: renderMembers members
end

/-- The start of a line at a nesting depth: two blanks for each level. -/
def newline (depth : Nat) : String :=
  String.ofList ('\n' :: List.replicate (2 * depth) ' ')

/-- Lines between brackets at a nesting depth. Without lines the brackets touch. -/
def block (opening closing : String) (depth : Nat) (lines : List String) : String :=
  if lines = [] then opening ++ closing
  else
    let separator := "," ++ newline (depth + 1)
    opening ++ newline (depth + 1) ++ separator.intercalate lines ++ newline depth ++ closing

mutual
/-- The indented text at a nesting depth. -/
def renderAt (depth : Nat) : Json → String
  | null => "null"
  | bool b => renderBool b
  | number n => n.render
  | string s => quote s
  | array items => block "[" "]" depth (renderItemsAt (depth + 1) items)
  | object members => block "\x7b" "\x7d" depth (renderMembersAt (depth + 1) members)

/-- The indented texts of the items. -/
def renderItemsAt (depth : Nat) : List Json → List String
  | [] => []
  | v :: items => renderAt depth v :: renderItemsAt depth items

/-- The indented texts of the members. -/
def renderMembersAt (depth : Nat) : List (String × Json) → List String
  | [] => []
  | (k, v) :: members => (quote k ++ ": " ++ renderAt depth v) :: renderMembersAt depth members
end

/-- The text with each item on a line of its own. -/
def renderIndented (v : Json) : String := renderAt 0 v

end Json
end BinaryRecord
