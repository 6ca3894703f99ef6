import BinaryRecord.Word

/-!
# Hexadecimal text of bytes

Two lower-case digits for each byte, the high half first.
-/

namespace BinaryRecord.Hex

/-- The digit of a number below 16. -/
def digit (n : Nat) : Char := Nat.digitChar n

/-- The two digits of each byte, joined. -/
def encode (bs : Bytes) : String :=
  String.ofList (bs.flatMap fun b => [digit (b.toNat / 16), digit (b.toNat % 16)])

/-- The number that a digit stands for, in either case of letters. -/
def digitValue? (c : Char) : Option Nat :=
  if '0' ≤ c ∧ c ≤ '9' then some (c.toNat - '0'.toNat)
  else if 'a' ≤ c ∧ c ≤ 'f' then some (c.toNat - 'a'.toNat + 10)
  else if 'A' ≤ c ∧ c ≤ 'F' then some (c.toNat - 'A'.toNat + 10)
  else none

/-- The bytes that a list of digit pairs stands for. -/
def decodeChars? : List Char → Option Bytes
  | [] => some []
  | [_] => none
  | a :: b :: cs => do
    let high ← digitValue? a
    let low ← digitValue? b
    return UInt8.ofNat (high * 16 + low) :: (← decodeChars? cs)

/-- The bytes that a hexadecimal text stands for. -/
def decode? (s : String) : Option Bytes := decodeChars? s.toList

end BinaryRecord.Hex
