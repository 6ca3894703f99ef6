import BinaryRecord.Word

/-!
# UTF-8

A byte string is cut into pieces, each a well-formed character or the longest run
of bytes that begins one and does not finish it. Strict decoding accepts only
characters; lossy decoding puts one replacement character in the place of each
other piece.

## Main definitions

* `Utf8.encode`: the bytes of a string.
* `Utf8.pieces`: the pieces of a byte string.
* `Utf8.decode?`, `Utf8.decodeLossy`: the two ways to read them.
-/

namespace BinaryRecord.Utf8

/-- The bytes of a string. -/
def encode (s : String) : Bytes := s.toList.flatMap String.utf8EncodeChar

/-- What the first byte of a character says of the rest: the high bits of its code
point, the number of bytes to follow, and the range of the next. The range of the
second byte excludes overlong forms, surrogates and code points above the last. -/
structure Lead where
  bits : Nat
  following : Nat
  low : UInt8
  high : UInt8

/-- The meaning of a first byte, if it can begin a character. -/
def lead? (b : UInt8) : Option Lead :=
  if b < 0x80 then some ⟨b.toNat, 0, 0x80, 0xBF⟩
  else if b < 0xC2 then none
  else if b < 0xE0 then some ⟨b.toNat - 0xC0, 1, 0x80, 0xBF⟩
  else if b < 0xF0 then
    some ⟨b.toNat - 0xE0, 2, if b = 0xE0 then 0xA0 else 0x80, if b = 0xED then 0x9F else 0xBF⟩
  else if b < 0xF5 then
    some ⟨b.toNat - 0xF0, 3, if b = 0xF0 then 0x90 else 0x80, if b = 0xF4 then 0x8F else 0xBF⟩
  else none

/-- Takes the bytes that follow a first byte, as far as they fit. Gives the code
point, unless a byte is missing, and the bytes not taken. -/
def takeFollowing (bits : Nat) :
    (following : Nat) → (low high : UInt8) → Bytes → Option Nat × Bytes
  | 0, _, _, bs => (some bits, bs)
  | _ + 1, _, _, [] => (none, [])
  | n + 1, low, high, b :: bs =>
    if low ≤ b ∧ b ≤ high then takeFollowing (bits * 64 + (b.toNat - 0x80)) n 0x80 0xBF bs
    else (none, b :: bs)

theorem length_takeFollowing_le (bits n : Nat) (low high : UInt8) (bs : Bytes) :
    (takeFollowing bits n low high bs).2.length ≤ bs.length := by
  fun_induction takeFollowing bits n low high bs with
  | case1 => simp
  | case2 => simp
  | case3 _ _ _ _ _ _ _ ih => simp only [List.length_cons]; omega
  | case4 => simp

/-- The pieces of a byte string: characters, and `none` for each run of bytes that
is the longest beginning of no finished character. -/
def pieces : Bytes → List (Option Char)
  | [] => []
  | b :: bs =>
    match lead? b with
    | none => none :: pieces bs
    | some l =>
      let taken := takeFollowing l.bits l.following l.low l.high bs
      taken.1.map Char.ofNat :: pieces taken.2
termination_by bs => bs.length
decreasing_by
  · simp
  · have := length_takeFollowing_le l.bits l.following l.low l.high bs
    simp only [List.length_cons]
    omega

/-- The characters of a byte string that is well-formed throughout. -/
def decode? (bs : Bytes) : Option (List Char) := (pieces bs).mapM id

/-- The text of a byte string, with U+FFFD in the place of each malformed piece. -/
def decodeLossy (bs : Bytes) : String :=
  String.ofList ((pieces bs).map (·.getD '\uFFFD'))

end BinaryRecord.Utf8
