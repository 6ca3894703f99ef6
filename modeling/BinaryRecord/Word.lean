import BinaryRecord.ByteOrder

/-!
# The bytes of a machine word

A 64-bit word is written as its low bytes in a chosen order and read back by
folding bytes into a word, the most significant first. Reading takes any number
of bytes: those beyond eight push the earliest out at the top of the word.

## Main definitions

* `Word.toBytes`: the low bytes of a word.
* `Word.ofBytes`: the word that a byte string folds to.
* `Word.signExtend`: the signed reading of the low bytes.
-/

namespace BinaryRecord

/-- A byte string. -/
abbrev Bytes := List UInt8

namespace ByteOrder

/-- Puts a little-endian byte string into an order, and back again. -/
def arrange (o : ByteOrder) (bs : Bytes) : Bytes :=
  match o with
  | little => bs
  | big => bs.reverse

@[simp] theorem length_arrange (o : ByteOrder) (bs : Bytes) :
    (o.arrange bs).length = bs.length := by cases o <;> simp [arrange]

@[simp] theorem arrange_arrange (o : ByteOrder) (bs : Bytes) :
    o.arrange (o.arrange bs) = bs := by cases o <;> simp [arrange]

theorem arrange_flip (o : ByteOrder) (bs : Bytes) :
    o.flip.arrange bs = (o.arrange bs).reverse := by cases o <;> simp [arrange, flip]

end ByteOrder

namespace Word

/-- The byte of weight `256 ^ i`. -/
def byte (w : UInt64) (i : Nat) : UInt8 := (w >>> UInt64.ofNat (8 * i)).toUInt8

/-- The low `width` bytes of a word in the given order. -/
def toBytes (width : Nat) (o : ByteOrder) (w : UInt64) : Bytes :=
  o.arrange ((List.range width).map (byte w))

/-- Appends one byte at the low end of a word. -/
def push (b : UInt8) (w : UInt64) : UInt64 := (w <<< 8) ||| b.toUInt64

/-- The word that the bytes fold to, modulo `2 ^ 64`. -/
def ofBytes (o : ByteOrder) (bs : Bytes) : UInt64 := (o.arrange bs).foldr push 0

/-- The low `8 * width` bits of a word read as a two's-complement number. -/
def signExtend (width : Nat) (w : UInt64) : Int64 :=
  let unused := 64 - 8 * width
  (w <<< UInt64.ofNat unused).toInt64 >>> Int64.ofNat unused

@[simp] theorem length_toBytes (width : Nat) (o : ByteOrder) (w : UInt64) :
    (toBytes width o w).length = width := by simp [toBytes]

theorem toBytes_flip (width : Nat) (o : ByteOrder) (w : UInt64) :
    toBytes width o.flip w = (toBytes width o w).reverse := ByteOrder.arrange_flip o _

theorem ofBytes_reverse_flip (o : ByteOrder) (bs : Bytes) :
    ofBytes o.flip bs.reverse = ofBytes o bs := by
  cases o <;> simp [ofBytes, ByteOrder.arrange, ByteOrder.flip]

end Word
end BinaryRecord
