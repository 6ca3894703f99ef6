import BinaryRecord.Layout.Basic

/-!
# Reading a format

A format is scanned once, from left to right. Digits collect into a pending
repeat count, a marker changes the byte order and leaves the count alone, and a
type code closes the count into a group. Blanks stand between groups only. The
first fault ends the scan.

## Main definitions

* `Scanner`: what the scan carries from one character to the next.
* `Layout.parse`: the layout of a format.
-/

namespace BinaryRecord

/-- The largest repeat count of one group. -/
def repeatLimit : Nat := 0x1000000

/-- The largest number of bytes that a layout may cover. -/
def byteLimit : Nat := 0x7FFFFFFFFFFFFFFF

/-- A repeat count that is being read. -/
structure RepeatCount where
  /-- The number so far. -/
  value : Nat
  /-- The position of its first digit. -/
  start : Nat
  deriving DecidableEq, Repr

/-- What the scan of a format carries from one character to the next. -/
structure Scanner where
  /-- The position of the next character. -/
  position : Nat
  /-- The byte order in force. -/
  order : ByteOrder
  /-- Bytes covered by the groups so far. -/
  total : Nat
  /-- The repeat count not yet closed. -/
  pending : Option RepeatCount
  deriving DecidableEq, Repr

namespace Scanner

/-- The scanner before the first character. -/
def start : Scanner := ⟨0, .native, 0, none⟩

/-- The value of a decimal digit. -/
def digit? (c : Char) : Option Nat :=
  if '0' ≤ c ∧ c ≤ '9' then some (c.toNat - '0'.toNat) else none

/-- The blanks of the format language: space, tab, line feed, form feed, carriage return. -/
def isBlank (c : Char) : Bool := c ∈ [' ', '\t', '\n', '\x0c', '\r']

/-- Takes a digit into the pending count. -/
def pushDigit (s : Scanner) (d : Nat) : Except Error Scanner :=
  let count := s.pending.getD ⟨0, s.position⟩
  let value := count.value * 10 + d
  if value ≤ repeatLimit then
    .ok { s with position := s.position + 1, pending := some { count with value } }
  else .error (.tooLarge count.start)

/-- Closes the pending count, or the count one, into a group of the code. -/
def close (s : Scanner) (code : Code) : Except Error (Scanner × Group) :=
  let count := s.pending.getD ⟨1, s.position⟩
  let group := Group.ofCode count.value code s.order
  let total := s.total + group.byteLength
  if count.value = 0 then .error (.zeroRepeat count.start)
  else if total ≤ byteLimit then
    .ok (⟨s.position + 1, s.order, total, none⟩, group)
  else .error (.tooLarge count.start)

/-- Takes one character, which may complete a group. -/
def step (s : Scanner) (c : Char) : Except Error (Scanner × Option Group) :=
  match digit? c with
  | some d => (s.pushDigit d).map fun s => (s, none)
  | none =>
    match ByteOrder.ofMarker? c with
    | some order => .ok ({ s with position := s.position + 1, order }, none)
    | none =>
      if isBlank c then
        if s.pending.isSome then .error (.interruptedCount s.position)
        else .ok ({ s with position := s.position + 1 }, none)
      else
        match Code.ofChar? c with
        | none => .error (.unknownCode c s.position)
        | some code => (s.close code).map fun p => (p.1, some p.2)

/-- Takes the remaining characters and gives the groups they complete. -/
def run (s : Scanner) : List Char → Except Error Layout
  | [] =>
    match s.pending with
    | some count => .error (.unfinishedGroup count.start)
    | none => .ok []
  | c :: cs => do
    let (s, group?) ← s.step c
    let groups ← run s cs
    return group?.toList ++ groups

end Scanner

/-- The layout that a format describes. -/
def Layout.parse (format : String) : Except Error Layout := Scanner.start.run format.toList

end BinaryRecord
