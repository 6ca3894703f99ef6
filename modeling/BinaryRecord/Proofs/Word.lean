import Mathlib.Data.Nat.Digits.Defs
import Mathlib.Tactic.Positivity
import Mathlib.Tactic.Ring
import BinaryRecord.Word

/-!
# The value of bytes

A byte string has a positional value of any size; a word holds it modulo
`2 ^ 64`. Up to eight bytes reading and writing are inverse, and the signed
reading is the balanced remainder by the number of patterns.

## Main definitions

* `Word.positional`: the value of a little-endian byte string.
-/

namespace BinaryRecord.Word

/-- The value of a little-endian byte string of any length. -/
def positional (bs : Bytes) : ℕ := Nat.ofDigits 256 (bs.map UInt8.toNat)

@[simp] theorem positional_nil : positional [] = 0 := rfl

@[simp] theorem positional_cons (b : UInt8) (bs : Bytes) :
    positional (b :: bs) = b.toNat + 256 * positional bs := by
  simp [positional, Nat.ofDigits_cons]

theorem positional_lt (bs : Bytes) : positional bs < 256 ^ bs.length := by
  induction bs with
  | nil => simp
  | cons b bs ih =>
    have hb : b.toNat < 256 := b.toNat_lt
    rw [positional_cons, List.length_cons, pow_succ]
    omega

theorem positional_inj {as bs : Bytes} (hlen : as.length = bs.length)
    (h : positional as = positional bs) : as = bs := by
  induction as generalizing bs with
  | nil => exact (List.length_eq_zero_iff.mp hlen.symm).symm
  | cons a as ih =>
    cases bs with
    | nil => simp at hlen
    | cons b bs =>
      have ha : a.toNat < 256 := a.toNat_lt
      have hb : b.toNat < 256 := b.toNat_lt
      simp only [positional_cons] at h
      have hhead : a = b := UInt8.toNat_inj.mp (by omega)
      have htail : as = bs := ih (by simpa using hlen) (by omega)
      rw [hhead, htail]

theorem toNat_push (b : UInt8) (w : UInt64) :
    (push b w).toNat = (b.toNat + 256 * w.toNat) % 2 ^ 64 := by
  have hb : b.toNat < 2 ^ 8 := b.toNat_lt
  have hshift : (w <<< 8).toNat = 2 ^ 8 * (w.toNat % 2 ^ 56) := by
    rw [UInt64.toNat_shiftLeft]
    change w.toNat <<< 8 % 2 ^ 64 = _
    rw [Nat.shiftLeft_eq]
    omega
  rw [push, UInt64.toNat_or, hshift, UInt8.toNat_toUInt64, ← Nat.two_pow_add_eq_or_of_lt hb]
  omega

theorem toNat_ofBytes (o : ByteOrder) (bs : Bytes) :
    (ofBytes o bs).toNat = positional (o.arrange bs) % 2 ^ 64 := by
  unfold ofBytes
  induction o.arrange bs with
  | nil => rfl
  | cons b bs ih =>
    rw [List.foldr_cons, toNat_push, ih, positional_cons]
    omega

/-- Up to eight bytes no bit is lost. -/
theorem toNat_ofBytes_of_length_le {o : ByteOrder} {bs : Bytes} (h : bs.length ≤ 8) :
    (ofBytes o bs).toNat = positional (o.arrange bs) := by
  have hlt := positional_lt (o.arrange bs)
  have hpow : 256 ^ (o.arrange bs).length ≤ 256 ^ 8 :=
    Nat.pow_le_pow_right (by decide) (by simpa using h)
  rw [toNat_ofBytes, Nat.mod_eq_of_lt (by omega)]

theorem toNat_byte (w : UInt64) {i : ℕ} (hi : i < 8) :
    (byte w i).toNat = w.toNat / 256 ^ i % 256 := by
  have hshift : (UInt64.ofNat (8 * i)).toNat % 64 = 8 * i := by
    rw [UInt64.toNat_ofNat']
    omega
  have hpow : 2 ^ (8 * i) = 256 ^ i := by rw [pow_mul]; norm_num
  rw [byte, UInt64.toNat_toUInt8, UInt64.toNat_shiftRight, hshift, Nat.shiftRight_eq_div_pow, hpow]

/-- The low bytes of a word hold its value modulo their number. -/
theorem positional_map_byte (w : UInt64) {width : ℕ} (hw : width ≤ 8) :
    positional ((List.range width).map (byte w)) = w.toNat % 256 ^ width := by
  have hdigits : ∀ n ≤ width, Nat.ofDigits 256
      ((List.range n).map fun i => (byte w i).toNat) = w.toNat % 256 ^ n := by
    intro n hn
    induction n with
    | zero => simp [Nat.mod_one]
    | succ n ih =>
      rw [List.range_succ, List.map_append, Nat.ofDigits_append, ih (by omega)]
      simp only [List.map_cons, List.map_nil, Nat.ofDigits_singleton, List.length_map,
        List.length_range]
      rw [toNat_byte w (by omega), Nat.mod_pow_succ]
  simpa [positional, Function.comp_def] using hdigits width le_rfl

theorem positional_toBytes (o : ByteOrder) (w : UInt64) {width : ℕ} (hw : width ≤ 8) :
    positional (o.arrange (toBytes width o w)) = w.toNat % 256 ^ width := by
  rw [toBytes, ByteOrder.arrange_arrange, positional_map_byte w hw]

/-- Reading back what was written gives the low part of the word. -/
theorem toNat_ofBytes_toBytes (o : ByteOrder) (w : UInt64) {width : ℕ} (hw : width ≤ 8) :
    (ofBytes o (toBytes width o w)).toNat = w.toNat % 256 ^ width := by
  rw [toNat_ofBytes_of_length_le (by simpa using hw), positional_toBytes o w hw]

/-- Only the low part of a word is written. -/
theorem toBytes_congr {w w' : UInt64} {width : ℕ} (hw : width ≤ 8) (o : ByteOrder)
    (h : w.toNat % 256 ^ width = w'.toNat % 256 ^ width) :
    toBytes width o w = toBytes width o w' := by
  have harrange : o.arrange (toBytes width o w) = o.arrange (toBytes width o w') :=
    positional_inj (by simp) (by rw [positional_toBytes o w hw, positional_toBytes o w' hw, h])
  simpa using congrArg o.arrange harrange

/-- Writing what was read gives the bytes back. -/
theorem toBytes_ofBytes (o : ByteOrder) {bs : Bytes} {width : ℕ} (hlen : bs.length = width)
    (hw : width ≤ 8) : toBytes width o (ofBytes o bs) = bs := by
  have hlt := positional_lt (o.arrange bs)
  rw [ByteOrder.length_arrange, hlen] at hlt
  have harrange : o.arrange (toBytes width o (ofBytes o bs)) = o.arrange bs := by
    refine positional_inj (by simp [hlen]) ?_
    rw [positional_toBytes o _ hw, toNat_ofBytes_of_length_le (by omega), Nat.mod_eq_of_lt hlt]
  simpa using congrArg o.arrange harrange

/-! ## Two's complement -/

/-- A word without the highest bit is the same number in both readings. -/
theorem toInt_toInt64 {n : UInt64} (h : n < 0x8000000000000000) : n.toInt64.toInt = n.toNat := by
  have hlt : n.toNat < 2 ^ 63 := UInt64.lt_iff_toNat_lt.mp h
  change n.toInt64.toBitVec.toInt = n.toBitVec.toNat
  rw [UInt64.toBitVec_toInt64, BitVec.toInt_eq_toNat_of_lt (by rw [UInt64.toNat_toBitVec]; omega)]

theorem toNat_ofInt (n : ℤ) : ((UInt64.ofInt n).toNat : ℤ) = n % 2 ^ 64 := by
  have hlt : (n % 2 ^ 64).toNat < UInt64.size := by
    simp only [UInt64.size]
    omega
  rw [UInt64.ofInt, UInt64.toNat_ofNat_of_lt' hlt]
  omega

/-- The low digits of an integer in two's complement. -/
theorem toNat_ofInt_mod (n : ℤ) {width : ℕ} (hw : width ≤ 8) :
    (((UInt64.ofInt n).toNat % 256 ^ width : ℕ) : ℤ) = n % 256 ^ width := by
  have hdvd : (256 ^ width : ℤ) ∣ 2 ^ 64 := pow_dvd_pow 256 hw
  push_cast
  rw [toNat_ofInt, Int.emod_emod_of_dvd n hdvd]

/-- An integer is written as any word that it is congruent to. -/
theorem toBytes_ofInt_of_emod_eq {n : ℤ} {w : UInt64} {width : ℕ} (hw : width ≤ 8)
    (o : ByteOrder) (h : n % 256 ^ width = w.toNat % 256 ^ width) :
    toBytes width o (.ofInt n) = toBytes width o w := by
  refine toBytes_congr hw o ?_
  rw [← Int.natCast_inj, toNat_ofInt_mod n hw, h]
  push_cast
  rfl

/-- Balanced remainders scale with their modulus. -/
theorem bmod_mul_mul {k : ℕ} (hk : 0 < k) (x : ℤ) (m : ℕ) (hm : 2 ∣ m) :
    (k * x).bmod (k * m) = k * x.bmod m := by
  obtain ⟨h, rfl⟩ := hm
  have hk' : (0 : ℤ) < k := by exact_mod_cast hk
  have hhalf : ((((k * (2 * h) : ℕ) : ℤ) + 1) / 2) = k * h := by
    push_cast
    rw [show (k : ℤ) * (2 * h) + 1 = 1 + k * h * 2 by ring]
    rw [Int.add_mul_ediv_right _ _ (by decide)]
    norm_num
  have hhalf' : (((2 * h : ℕ) : ℤ) + 1) / 2 = h := by omega
  rw [Int.bmod_def, Int.bmod_def, hhalf, hhalf']
  push_cast
  rw [Int.mul_emod_mul_of_pos _ _ hk']
  simp only [mul_lt_mul_iff_right₀ hk']
  split
  · rfl
  · ring

theorem toNat_smod_ofNat {k : ℕ} (hk : k < 64) :
    ((Int64.ofNat k).toBitVec.smod 64).toNat = k := by
  revert k
  decide

/-- With its unused bits shifted out, a word is a multiple of the signed reading of the rest. -/
theorem toInt_shiftLeft {width unused : ℕ} (h₁ : 1 ≤ width) (hbits : unused + 8 * width = 64)
    (w : UInt64) :
    (w <<< UInt64.ofNat unused).toBitVec.toInt =
      2 ^ unused * (w.toNat : ℤ).bmod (256 ^ width) := by
  have hpow : 2 ^ 64 = 2 ^ unused * 256 ^ width := by
    rw [← hbits, pow_add, pow_mul]
    norm_num
  have hshift : (w <<< UInt64.ofNat unused).toNat = 2 ^ unused * (w.toNat % 256 ^ width) := by
    have hamount : (UInt64.ofNat unused).toNat % 64 = unused := by
      rw [UInt64.toNat_ofNat']
      omega
    rw [UInt64.toNat_shiftLeft, hamount, Nat.shiftLeft_eq, hpow, mul_comm, Nat.mul_mod_mul_left]
  have heven : 2 ∣ 256 ^ width := dvd_pow (by decide) (by omega)
  have hmod := Int.emod_bmod (w.toNat : ℤ) (256 ^ width)
  have hscale := bmod_mul_mul (Nat.two_pow_pos unused) (w.toNat % 256 ^ width : ℤ)
    (256 ^ width) heven
  rw [BitVec.toInt_eq_toNat_bmod, UInt64.toNat_toBitVec, hshift, hpow]
  push_cast at hmod hscale ⊢
  rw [hscale, hmod]

/-- The two's-complement reading of the low bytes of a word. -/
theorem toInt_signExtend {width : ℕ} (h₁ : 1 ≤ width) (h₈ : width ≤ 8) (w : UInt64) :
    (signExtend width w).toInt = (w.toNat : ℤ).bmod (256 ^ width) := by
  have hbits : 64 - 8 * width + 8 * width = 64 := by omega
  change ((w <<< UInt64.ofNat (64 - 8 * width)).toInt64 >>>
    Int64.ofNat (64 - 8 * width)).toBitVec.toInt = _
  rw [Int64.toBitVec_shiftRight, BitVec.toInt_sshiftRight', toNat_smod_ofNat (by omega),
    UInt64.toBitVec_toInt64, toInt_shiftLeft h₁ hbits, Int.shiftRight_eq_div_pow]
  push_cast
  exact Int.mul_ediv_cancel_left _ (by positivity)

/-- The two's-complement digits of an integer read as a signed number. -/
theorem toInt_signExtend_toBytes (o : ByteOrder) (n : ℤ) {width : ℕ} (h₁ : 1 ≤ width)
    (h₈ : width ≤ 8) :
    (signExtend width (ofBytes o (toBytes width o (.ofInt n)))).toInt = n.bmod (256 ^ width) := by
  rw [toInt_signExtend h₁ h₈, toNat_ofBytes_toBytes o _ h₈, toNat_ofInt_mod n h₈]
  exact_mod_cast Int.emod_bmod n (256 ^ width)

/-- The two's-complement digits of an integer read as an unsigned number. -/
theorem toNat_ofBytes_toBytes_ofInt (o : ByteOrder) (n : ℤ) {width : ℕ} (h₈ : width ≤ 8) :
    ((ofBytes o (toBytes width o (.ofInt n))).toNat : ℤ) = n % 256 ^ width := by
  rw [toNat_ofBytes_toBytes o _ h₈, toNat_ofInt_mod n h₈]

end BinaryRecord.Word
