import BinaryRecord.Text.DefaultIgnorable
import BinaryRecord.Text.GraphemeExtend

/-!
# Quoted text

Text inside a message stands between quotes and shows every character visibly.
NUL, tab, line feed, carriage return, the backslash and the enclosing quote have a
backslash form of two characters; a character that does not print, that a display
leaves out, or that would attach to its neighbour, is written by its code point.
-/

namespace BinaryRecord.Text

/-- The code point in lower-case hexadecimal, without leading zeros, in braces. -/
def codePointEscape (c : Char) : List Char :=
  ['\\', 'u', '\x7b'] ++ Nat.toDigits 16 c.toNat ++ ['\x7d']

/-- The two halfwidth voiced sound marks of Japanese. -/
def isVoicedSoundMark (c : Char) : Bool := c == '\uff9e' || c == '\uff9f'

/-- Does the character stand for itself in a cell of its own? The voiced sound marks
do: they extend a grapheme only in name, since they are letters with a width. -/
def standsAlone (c : Char) : Bool :=
  isPrintable c && !isDefaultIgnorable c && (!isGraphemeExtend c || isVoicedSoundMark c)

/-- One character as it stands between quotes of the given kind. -/
def escapeChar (quote c : Char) : List Char :=
  if c = '\x00' then ['\\', '0']
  else if c = '\t' then ['\\', 't']
  else if c = '\r' then ['\\', 'r']
  else if c = '\n' then ['\\', 'n']
  else if c = '\\' ∨ c = quote then ['\\', c]
  else if standsAlone c then [c]
  else codePointEscape c

/-- A character in single quotes. -/
def quoteChar (c : Char) : String :=
  String.ofList ('\'' :: escapeChar '\'' c ++ ['\''])

/-- A string in double quotes. -/
def quoteString (s : String) : String :=
  String.ofList ('"' :: s.toList.flatMap (escapeChar '"') ++ ['"'])

end BinaryRecord.Text
