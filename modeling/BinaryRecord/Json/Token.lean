import BinaryRecord.Floating.Decimal
import BinaryRecord.Json.Basic

/-!
# JSON tokens

A JSON text is a sequence of brackets, colons, commas, strings and words, with
blanks between them. A word is a run of other characters; it must be a number or
one of the three names. The text is cut in one pass, whose state says whether a
word or a string is open.

## Main definitions

* `JsonNumber.parse?`: the number that a word denotes.
* `Json.tokens?`: the tokens of a text.
-/

namespace BinaryRecord

/-- An element of a JSON text. -/
inductive JsonToken where
  | openArray
  | closeArray
  | openObject
  | closeObject
  | colon
  | comma
  | string (s : String)
  /-- A number, a truth value or null. -/
  | scalar (v : Json)

/-! ## Numbers -/

namespace JsonNumber

/-- The values of the decimal digits at the front, and what follows them. -/
def spanDigits : List Char → List Nat × List Char
  | [] => ([], [])
  | c :: cs =>
    if c.isDigit then
      let (ds, rest) := spanDigits cs
      ((c.toNat - '0'.toNat) :: ds, rest)
    else ([], c :: cs)

/-- The number that decimal digits denote. -/
def natOfDigits (ds : List Nat) : Nat := ds.foldl (fun n d => n * 10 + d) 0

/-- A minus sign at the front, and what follows it. -/
def spanMinus : List Char → Bool × List Char
  | '-' :: cs => (true, cs)
  | cs => (false, cs)

/-- The digits of a fraction at the front, if there is one. A point needs a digit. -/
def spanFraction? : List Char → Option (Option (List Nat) × List Char)
  | '.' :: cs =>
    match spanDigits cs with
    | ([], _) => none
    | (ds, rest) => some (some ds, rest)
  | cs => some (none, cs)

/-- The exponent that makes up all of the text, if there is one. A mark needs a digit. -/
def exponent? : List Char → Option (Option Int)
  | [] => some none
  | c :: cs =>
    if c = 'e' ∨ c = 'E' then
      let (sign, cs) : Int × List Char :=
        match cs with
        | '+' :: cs => (1, cs)
        | '-' :: cs => (-1, cs)
        | cs => (1, cs)
      match spanDigits cs with
      | (d :: ds, []) => some (some (sign * natOfDigits (d :: ds)))
      | _ => none
    else none

/-- The number read in floating point, if it is not too large. -/
def ofDecimal? (negative : Bool) (d : Decimal) : Option JsonNumber := do
  let x ← d.toBinary64? negative
  if h : x.isFinite = true then some (float x h) else none

/-- The integer, if a word holds it. Negative zero is no integer. -/
def ofInteger? (minus : Bool) (n : Nat) : Option JsonNumber :=
  if minus then
    let m := Int64.ofInt (-n)
    if h : m < 0 then if n ≤ 0x8000000000000000 then some (negative m h) else none else none
  else if n < UInt64.size then some (natural (UInt64.ofNat n)) else none

/-- The number that a word denotes. The integer part has no superfluous zeros. An
integer that fits a word is exact, every other number is read in floating point. -/
def parse? (word : List Char) : Option JsonNumber := do
  let (minus, cs) := spanMinus word
  let (integer, cs) := spanDigits cs
  if integer = [] ∨ (integer.head? = some 0 ∧ integer.length ≠ 1) then none
  else
    let (fraction?, cs) ← spanFraction? cs
    let exponent? ← exponent? cs
    let decimal := ofDecimal? minus
      (.ofDigits integer (fraction?.getD []) (exponent?.getD 0))
    match fraction?, exponent? with
    | none, none => (ofInteger? minus (natOfDigits integer)).or decimal
    | _, _ => decimal

end JsonNumber

/-! ## Strings -/

/-- How far an escape inside a string has been read. -/
inductive JsonEscape where
  /-- Outside an escape. -/
  | plain
  /-- Behind a backslash. -/
  | backslash
  /-- Inside the hexadecimal digits of a code unit, behind the first of a surrogate
  pair or not. -/
  | unit (high : Option Nat) (missing : Nat) (value : Nat)
  /-- Before the backslash of the second unit of a surrogate pair. -/
  | pairBackslash (high : Nat)
  /-- Before the letter of the second unit of a surrogate pair. -/
  | pairLetter (high : Nat)

namespace JsonEscape

/-- The character that an escape of one letter denotes. -/
def letter? : Char → Option Char
  | '"' => some '"'
  | '\\' => some '\\'
  | '/' => some '/'
  | 'b' => some '\x08'
  | 'f' => some '\x0c'
  | 'n' => some '\n'
  | 'r' => some '\r'
  | 't' => some '\t'
  | _ => none

/-- The value of a hexadecimal digit. -/
def hexDigit? (c : Char) : Option Nat :=
  if c.isDigit then some (c.toNat - '0'.toNat)
  else if 'a' ≤ c ∧ c ≤ 'f' then some (c.toNat - 'a'.toNat + 10)
  else if 'A' ≤ c ∧ c ≤ 'F' then some (c.toNat - 'A'.toNat + 10)
  else none

/-- What a complete code unit leads to: a character, or the wait for the second unit
of a pair. A second unit without a first has no meaning, nor a first without a second. -/
def finishUnit (high : Option Nat) (value : Nat) : Option (Option Char × JsonEscape) :=
  let isHigh := 0xD800 ≤ value ∧ value < 0xDC00
  let isLow := 0xDC00 ≤ value ∧ value < 0xE000
  match high with
  | none =>
    if isLow then none
    else if isHigh then some (none, pairBackslash value)
    else some (some (Char.ofNat value), plain)
  | some h =>
    if isLow then
      some (some (Char.ofNat (0x10000 + (h - 0xD800) * 0x400 + (value - 0xDC00))), plain)
    else none

/-- Takes one character of a string other than its closing quote. Gives the character
it completes, if any. -/
def step (e : JsonEscape) (c : Char) : Option (Option Char × JsonEscape) :=
  match e with
  | plain =>
    if c = '\\' then some (none, backslash)
    else if c.toNat < 0x20 then none
    else some (some c, plain)
  | backslash =>
    if c = 'u' then some (none, unit none 4 0)
    else (letter? c).map fun d => (some d, plain)
  | unit high missing value => do
    let value := value * 16 + (← hexDigit? c)
    if missing ≤ 1 then finishUnit high value
    else some (none, unit high (missing - 1) value)
  | pairBackslash high =>
    if c = '\\' then some (none, pairLetter high) else none
  | pairLetter high =>
    if c = 'u' then some (none, unit (some high) 4 0) else none

end JsonEscape

/-! ## The text -/

/-- What is open at some place of a JSON text. Characters are kept last first. -/
inductive JsonLexer where
  | between
  | word (reversed : List Char)
  | string (reversed : List Char) (escape : JsonEscape)

namespace JsonLexer

/-- Does the character separate tokens and mean nothing else? -/
def isBlank (c : Char) : Bool := c ∈ [' ', '\t', '\n', '\r']

/-- The token that a single character makes up. -/
def punctuation? : Char → Option JsonToken
  | '[' => some .openArray
  | ']' => some .closeArray
  | '\x7b' => some .openObject
  | '\x7d' => some .closeObject
  | ':' => some .colon
  | ',' => some .comma
  | _ => none

/-- The token of a complete word. -/
def ofWord? (word : List Char) : Option JsonToken :=
  if word = "null".toList then some (.scalar .null)
  else if word = "true".toList then some (.scalar (.bool true))
  else if word = "false".toList then some (.scalar (.bool false))
  else (JsonNumber.parse? word).map fun n => .scalar (.number n)

/-- Does the character end a word? -/
def endsWord (c : Char) : Bool := isBlank c || (punctuation? c).isSome || c = '"'

/-- Takes a character outside words and strings. -/
def start (c : Char) : List JsonToken × JsonLexer :=
  if isBlank c then ([], between)
  else
    match punctuation? c with
    | some t => ([t], between)
    | none => if c = '"' then ([], string [] .plain) else ([], word [c])

/-- Takes one character and gives the tokens it completes. -/
def step (s : JsonLexer) (c : Char) : Option (List JsonToken × JsonLexer) :=
  match s with
  | between => some (start c)
  | word w =>
    if endsWord c then do
      let t ← ofWord? w.reverse
      let (ts, s) := start c
      return (t :: ts, s)
    else some ([], word (c :: w))
  | string w escape =>
    match escape with
    | .plain =>
      if c = '"' then some ([.string (String.ofList w.reverse)], between)
      else do
        let (d?, escape) ← JsonEscape.plain.step c
        return ([], string (d?.toList ++ w) escape)
    | escape => do
      let (d?, escape) ← escape.step c
      return ([], string (d?.toList ++ w) escape)

/-- The tokens completed by the end of the text. -/
def finish : JsonLexer → Option (List JsonToken)
  | between => some []
  | word w => (ofWord? w.reverse).map ([·])
  | string .. => none

/-- Takes the remaining characters and gives all tokens they complete. -/
def run (s : JsonLexer) (reversed : List JsonToken) : List Char → Option (List JsonToken)
  | [] => s.finish.map (reversed.reverse ++ ·)
  | c :: cs => do
    let (ts, s) ← s.step c
    run s (ts.reverse ++ reversed) cs

end JsonLexer

/-- The tokens of a JSON text. -/
def Json.tokens? (text : List Char) : Option (List JsonToken) :=
  JsonLexer.between.run [] text

end BinaryRecord
