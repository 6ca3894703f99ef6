import Mathlib.Data.Int.ModEq
import Mathlib.Data.Nat.Digits.Lemmas
import BinaryRecord.Proofs.Code.Stored

/-!
# Storing and reading integers

An integer code stores the digits of an integer in two's complement. Codes of up to 32 bits take
the integers of their range only, and the class of a value makes no difference. Bytes of any number
are read as the sum of their digits: the folded word holds it modulo `2 ^ 64`, and a signed code
leaves its balanced remainder.

## Main definitions

* `Word.TwosComplement`: bytes that are the digits of an integer.
* `Word.weighted`: the sum of bytes by their weights.
* `Code.Represents`: the integers in the range of a code.
-/

namespace BinaryRecord

/-! ## Digits -/

namespace ByteOrder

/-- Where the byte of weight `256 ^ i` of a number of `width` bytes stands. -/
def place (o : ByteOrder) (width i : ℕ) : ℕ :=
  match o with
  | little => i
  | big => width - 1 - i

theorem getElem?_arrange_place (o : ByteOrder) (bs : Bytes) {i : ℕ} (hi : i < bs.length) :
    (o.arrange bs)[o.place bs.length i]? = bs[i]? := by
  cases o with
  | little => rfl
  | big =>
    have hmirror : bs.length - 1 - (bs.length - 1 - i) = i := by omega
    simp only [arrange, place]
    rw [List.getElem?_reverse (by omega), hmirror]

end ByteOrder

namespace Word

/-- Bytes that are the digits of an integer in two's complement: the byte of weight `256 ^ i` is
that digit of the remainder by the number of patterns. -/
structure TwosComplement (o : ByteOrder) (width : ℕ) (n : ℤ) (bs : Bytes) : Prop where
  length_eq : bs.length = width
  digit_eq : ∀ i < width, ∃ b, bs[o.place width i]? = some b ∧
    (b.toNat : ℤ) = n % 2 ^ (8 * width) / 256 ^ i % 256

/-- The bytes of a word are digits of all integers that the word is congruent to. -/
theorem toNat_byte_ofInt (n : ℤ) {width i : ℕ} (hi : i < width) (hw : width ≤ 8) :
    ((byte (.ofInt n) i).toNat : ℤ) = n % 2 ^ (8 * width) / 256 ^ i % 256 := by
  have hdvd : 256 ^ i * 256 ∣ 256 ^ width := by
    rw [← pow_succ]
    exact pow_dvd_pow 256 hi
  have hdigit : (byte (.ofInt n) i).toNat =
      (UInt64.ofInt n).toNat % 256 ^ width / 256 ^ i % 256 := by
    rw [toNat_byte _ (by omega), ← Nat.mod_mul_right_div_self, ← Nat.mod_mul_right_div_self,
      Nat.mod_mod_of_dvd _ hdvd]
  have hpatterns : (2 : ℤ) ^ (8 * width) = 256 ^ width := by
    rw [pow_mul]
    norm_num
  rw [hdigit, hpatterns, ← toNat_ofInt_mod n hw]
  push_cast
  rfl

theorem twosComplement_toBytes (o : ByteOrder) (n : ℤ) {width : ℕ} (hw : width ≤ 8) :
    TwosComplement o width n (toBytes width o (.ofInt n)) where
  length_eq := length_toBytes width o _
  digit_eq := by
    intro i hi
    refine ⟨byte (.ofInt n) i, ?_, toNat_byte_ofInt n hi hw⟩
    have hplace := o.getElem?_arrange_place ((List.range width).map (byte (.ofInt n)))
      (by simpa using hi)
    simpa [toBytes, hi] using hplace

/-- The sum of the bytes, each with the weight that its place has in the order. -/
def weighted (o : ByteOrder) (bs : Bytes) : ℕ :=
  (bs.mapIdx fun j b => b.toNat * 256 ^ o.place bs.length j).sum

theorem weighted_eq_positional (o : ByteOrder) (bs : Bytes) :
    weighted o bs = positional (o.arrange bs) := by
  have hvalues : (((o.arrange bs).map UInt8.toNat).mapIdx fun i a => a * 256 ^ i) =
      (o.arrange bs).mapIdx fun i b => b.toNat * 256 ^ i :=
    List.ext_getElem (by simp) fun i _ _ => by simp
  rw [positional, Nat.ofDigits_eq_sum_mapIdx, hvalues]
  cases o with
  | little => rfl
  | big =>
    rw [ByteOrder.arrange, List.mapIdx_reverse, List.sum_reverse]
    rfl

theorem toNat_ofBytes_eq_weighted (o : ByteOrder) (bs : Bytes) :
    (ofBytes o bs).toNat = weighted o bs % 2 ^ 64 := by
  rw [toNat_ofBytes, weighted_eq_positional]

/-- What the fold pushes out of the word does not reach its low bytes. -/
theorem toInt_signExtend_ofBytes (o : ByteOrder) (bs : Bytes) {width : ℕ} (h₁ : 1 ≤ width)
    (h₈ : width ≤ 8) :
    (signExtend width (ofBytes o bs)).toInt = (weighted o bs : ℤ).bmod (256 ^ width) := by
  have hdvd : (256 ^ width : ℕ) ∣ 2 ^ 64 := pow_dvd_pow 256 h₈
  rw [toInt_signExtend h₁ h₈, toNat_ofBytes_eq_weighted, ← Int.emod_bmod, ← Int.natCast_mod,
    Nat.mod_mod_of_dvd _ hdvd, Int.natCast_mod, Int.emod_bmod]

end Word

/-! ## Accepted integers -/

namespace Code
variable {c : Code} {count : ℕ} {o : ByteOrder} {v : Value}

/-- The integer lies in the range of the code's kind at the code's width. -/
def Represents (c : Code) (n : ℤ) : Prop :=
  match c.kind with
  | .signed => -2 ^ (8 * c.width - 1) ≤ n ∧ n ≤ 2 ^ (8 * c.width - 1) - 1
  | .unsigned => 0 ≤ n ∧ n ≤ 2 ^ (8 * c.width) - 1
  | _ => False

theorem represents_iff (hkind : c.kind = .signed ∨ c.kind = .unsigned) (n : ℤ) :
    c.Represents n ↔ c.lowest ≤ n ∧ n ≤ c.highest := by
  cases c <;> simp [kind, entry] at hkind <;>
    simp [Represents, lowest, highest, isSigned, kind, width, entry]

theorem encode_of_integer_kind (hkind : c.kind = .signed ∨ c.kind = .unsigned) :
    c.encode count o v = (c.integerWord v).map (Word.toBytes c.width o) := by
  rcases hkind with hkind | hkind <;> simp [encode, hkind]

/-- What is stored depends on the integer and not on the class of its value. -/
theorem encode_of_integer? {n : ℤ} (hkind : c.kind = .signed ∨ c.kind = .unsigned)
    (h : v.integer? = some n) [Decidable (c.Represents n)] :
    c.encode count o v =
      if c.width = 8 ∨ c.Represents n then .ok (Word.toBytes c.width o (.ofInt n))
      else .error (.outOfRange c n) := by
  simp only [encode_of_integer_kind hkind, integerWord, h, represents_iff hkind]
  split <;> rfl

theorem encode_int_eq_encode_uint (hkind : c.kind = .signed ∨ c.kind = .unsigned) {m : Int64}
    {u : UInt64} (h : m.toInt = u.toNat) :
    c.encode count o (.int m) = c.encode count o (.uint u) := by
  classical
  have hm : (Value.int m).integer? = some (u.toNat : ℤ) := by simp [Value.integer?, h]
  have hu : (Value.uint u).integer? = some (u.toNat : ℤ) := rfl
  rw [encode_of_integer? hkind hm, encode_of_integer? hkind hu]

theorem encode_integer_eq_ok_iff (hkind : c.kind = .signed ∨ c.kind = .unsigned) {unit : Bytes} :
    c.encode count o v = .ok unit ↔ ∃ n, v.integer? = some n ∧
      (c.width = 8 ∨ c.Represents n) ∧ Word.toBytes c.width o (.ofInt n) = unit := by
  simp only [encode_of_integer_kind hkind, Except.map_eq_ok_iff, integerWord_eq_ok_iff,
    represents_iff hkind]
  constructor
  · rintro ⟨w, ⟨n, hn, hin, rfl⟩, rfl⟩
    exact ⟨n, hn, hin, rfl⟩
  · rintro ⟨n, hn, hin, rfl⟩
    exact ⟨_, ⟨n, hn, hin, rfl⟩, rfl⟩

theorem encode_integer_eq_error_iff (hkind : c.kind = .signed ∨ c.kind = .unsigned) {e : Error} :
    c.encode count o v = .error e ↔
      (∃ n, v.integer? = some n ∧ c.width ≠ 8 ∧ ¬ c.Represents n ∧ e = .outOfRange c n) ∨
      (∃ x, v = .float x ∧ e = .unsuitableValue c .float) ∨
      ∃ data, v = .bytes data ∧ e = .unsuitableValue c .bytes := by
  classical
  have hinteger : ∀ n, v.integer? = some n → (c.encode count o v = .error e ↔
      c.width ≠ 8 ∧ ¬ c.Represents n ∧ e = .outOfRange c n) := by
    intro n hn
    rw [encode_of_integer? hkind hn]
    by_cases hin : c.width = 8 ∨ c.Represents n
    · have hnot : ¬ (c.width ≠ 8 ∧ ¬ c.Represents n ∧ e = .outOfRange c n) := by
        rintro ⟨hwidth, hrange, -⟩
        exact hin.elim hwidth hrange
      simp [hin, hnot]
    · simp [not_or.mp hin, eq_comm]
  cases v with
  | int n => simp [hinteger _ rfl, Value.integer?]
  | uint n => simp [hinteger _ rfl, Value.integer?]
  | float x =>
    simp [encode_of_integer_kind hkind, integerWord, Value.integer?, Except.map, unsuitable,
      Value.tag, eq_comm]
  | bytes data =>
    simp [encode_of_integer_kind hkind, integerWord, Value.integer?, Except.map, unsuitable,
      Value.tag, eq_comm]

/-- An integer code stores exactly the integers that it represents, and one of 64 bits stores any
integer of a word. The bytes are the digits in two's complement, whatever the class of the value.
Any other integer is refused by itself, and any other value by its class. -/
theorem encode_integer (hkind : c.kind = .signed ∨ c.kind = .unsigned) (count : ℕ)
    (o : ByteOrder) :
    (∀ v : Value,
      ((∃ unit, c.encode count o v = .ok unit) ↔
        ∃ n, v.integer? = some n ∧ (c.width = 8 ∨ c.Represents n)) ∧
      (∀ unit, c.encode count o v = .ok unit →
        ∃ n, v.integer? = some n ∧ Word.TwosComplement o c.width n unit) ∧
      ∀ e, c.encode count o v = .error e ↔
        (∃ n, v.integer? = some n ∧ c.width ≠ 8 ∧ ¬ c.Represents n ∧ e = .outOfRange c n) ∨
        (∃ x, v = .float x ∧ e = .unsuitableValue c .float) ∨
        ∃ data, v = .bytes data ∧ e = .unsuitableValue c .bytes) ∧
    ∀ (m : Int64) (u : UInt64), m.toInt = u.toNat →
      c.encode count o (.int m) = c.encode count o (.uint u) := by
  refine ⟨fun v => ⟨?_, ?_, fun e => encode_integer_eq_error_iff hkind⟩, ?_⟩
  · simp only [encode_integer_eq_ok_iff hkind]
    constructor
    · rintro ⟨unit, n, hn, hin, -⟩
      exact ⟨n, hn, hin⟩
    · rintro ⟨n, hn, hin⟩
      exact ⟨_, n, hn, hin, rfl⟩
  · intro unit hunit
    obtain ⟨n, hn, -, rfl⟩ := (encode_integer_eq_ok_iff hkind).mp hunit
    exact ⟨n, hn, Word.twosComplement_toBytes o n c.width_le⟩
  · intro m u hmu
    exact encode_int_eq_encode_uint hkind hmu

/-- The last integer that 16 bits hold without a sign is stored in both classes. The next one is
refused, and so is the least signed one of 64 bits. -/
theorem encode_integer_short :
    encode .uint16 1 .little (.int 65535) = .ok [255, 255] ∧
      Word.TwosComplement .little 2 65535 [255, 255] ∧
      encode .uint16 1 .little (.uint 65535) = .ok [255, 255] ∧
      encode .uint16 1 .little (.uint 65536) = .error (.outOfRange .uint16 65536) ∧
      encode .uint16 1 .little (.int (-9223372036854775808)) =
        .error (.outOfRange .uint16 (-9223372036854775808)) := by
  obtain ⟨hvalue, hclass⟩ := encode_integer (c := .uint16) (.inr rfl) 1 .little
  have hstored : encode .uint16 1 .little (.int 65535) = .ok [255, 255] := by decide
  obtain ⟨n, hn, hdigits⟩ := (hvalue (.int 65535)).2.1 _ hstored
  obtain rfl : n = 65535 := (Option.some.inj hn).symm
  have hrange : ∀ n : ℤ, ¬ (0 ≤ n ∧ n ≤ 65535) → ¬ Represents .uint16 n := by
    simp [Represents, kind, width, entry]
  refine ⟨hstored, hdigits, ?_, ?_, ?_⟩
  · rw [← hclass 65535 65535 (by decide), hstored]
  · exact ((hvalue _).2.2 _).mpr (.inl ⟨_, by decide, by decide, hrange _ (by decide), rfl⟩)
  · exact ((hvalue _).2.2 _).mpr (.inl ⟨_, by decide, by decide, hrange _ (by decide), rfl⟩)

/-! ## Reading -/

/-- The range of a signed code holds one integer of each residue class. -/
theorem represents_and_modEq_iff (hkind : c.kind = .signed) (m s : ℤ) :
    c.Represents m ∧ m ≡ s [ZMOD 2 ^ (8 * c.width)] ↔ m = s.bmod (256 ^ c.width) := by
  have hpatterns : (2 : ℤ) ^ (8 * c.width) = (256 ^ c.width : ℕ) := by
    rw [pow_mul]
    norm_num
  rw [represents_iff (.inl hkind), mem_range_signed_iff hkind, hpatterns, Int.ModEq]
  constructor
  · rintro ⟨hm, hmod⟩
    rw [← hm, ← Int.emod_bmod, hmod, Int.emod_bmod]
  · rintro rfl
    exact ⟨Int.bmod_bmod, Int.bmod_emod⟩

theorem decode_reverse_flip (hkind : c.kind = .signed ∨ c.kind = .unsigned) (o : ByteOrder)
    (bs : Bytes) : c.decode o.flip bs.reverse = c.decode o bs := by
  rcases hkind with hkind | hkind <;> simp only [decode, hkind, Word.ofBytes_reverse_flip]

/-- An integer code reads bytes of any number as the sum of their weights. Without a sign that is
the remainder by `2 ^ 64`, whatever the width of the code; with a sign it is the only integer in the
code's range that is congruent to the sum modulo the number of patterns. Bytes in reverse are read
alike in the other order. -/
theorem decode_integer (hkind : c.kind = .signed ∨ c.kind = .unsigned) (o : ByteOrder)
    (bs : Bytes) :
    (c.kind = .unsigned → ∃ w : UInt64, c.decode o bs = some (.uint w) ∧
      w.toNat = Word.weighted o bs % 2 ^ 64) ∧
    (c.kind = .signed → ∃ n : Int64, c.decode o bs = some (.int n) ∧
      ∀ m : ℤ, c.Represents m ∧ m ≡ Word.weighted o bs [ZMOD 2 ^ (8 * c.width)] ↔ m = n.toInt) ∧
    c.decode o.flip bs.reverse = c.decode o bs := by
  refine ⟨fun hunsigned => ?_, fun hsigned => ?_, decode_reverse_flip hkind o bs⟩
  · refine ⟨Word.ofBytes o bs, ?_, Word.toNat_ofBytes_eq_weighted o bs⟩
    simp only [decode, hunsigned]
  · refine ⟨Word.signExtend c.width (Word.ofBytes o bs), ?_, fun m => ?_⟩
    · simp only [decode, hsigned]
    · rw [Word.toInt_signExtend_ofBytes o bs c.one_le_width c.width_le]
      exact represents_and_modEq_iff hsigned m _

/-- Nine bytes under `H` are read without the highest one, and three under `h` by the low two of
them, in either order. -/
theorem decode_integer_long :
    decode .uint16 .little [1, 0, 2, 0, 0, 0, 0, 0, 5] = some (.uint 131073) ∧
      decode .int16 .big [7, 255, 254] = some (.int (-2)) ∧
      decode .int16 .little [254, 255, 7] = some (.int (-2)) := by
  obtain ⟨hunsigned, -, -⟩ := decode_integer (c := .uint16) (.inr rfl) .little
    [1, 0, 2, 0, 0, 0, 0, 0, 5]
  obtain ⟨w, hread, hw⟩ := hunsigned rfl
  obtain rfl : w = 131073 := UInt64.toNat_inj.mp (hw.trans (by decide))
  obtain ⟨-, hsigned, hflip⟩ := decode_integer (c := .int16) (.inl rfl) .big [7, 255, 254]
  obtain ⟨n, hn, honly⟩ := hsigned rfl
  have hrange : Represents .int16 (-2) ∧
      (-2 : ℤ) ≡ Word.weighted .big [7, 255, 254] [ZMOD 2 ^ (8 * width .int16)] :=
    ⟨by simp [Represents, kind, width, entry], by decide⟩
  obtain rfl : n = -2 := Int64.toInt_inj.mp ((honly (-2)).mp hrange).symm
  exact ⟨hread, hn, hflip.trans hn⟩

end Code
end BinaryRecord
