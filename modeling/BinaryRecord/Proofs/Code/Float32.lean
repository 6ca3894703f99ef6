import BinaryRecord.Proofs.Code.Normal
import BinaryRecord.Proofs.Floating.Rounding

/-!
# Storing numbers of 32 bits

The code of the 32-bit format stores the nearest number of that format and refuses a finite one
that has none. What it reads keeps its value, so it is stored again as it was, but for the quiet
bit of a NaN.

## Main definitions

* `Binary32.StoredAs`: a unit that holds the bits of a number.
-/

namespace BinaryRecord

/-- A unit holds the bits of a number, in some order of its bytes. -/
structure Binary32.StoredAs (y : Binary32) (o : ByteOrder) (unit : Bytes) : Prop where
  length_eq : unit.length = 4
  positional_eq : Word.positional (o.arrange unit) = y.bits.toNat

theorem Binary32.storedAs_toBytes (y : Binary32) (o : ByteOrder) :
    y.StoredAs o (Word.toBytes 4 o y.bits.toUInt64) where
  length_eq := Word.length_toBytes 4 o _
  positional_eq := by
    have hlt : y.bits.toNat < 256 ^ 4 := y.bits.toNat_lt
    rw [Word.positional_toBytes o _ (by decide), UInt32.toNat_toUInt64, Nat.mod_eq_of_lt hlt]

namespace Code

/-- A number overflows if it is finite and not below the middle between the largest finite value
of the 32-bit format and the next one on the grid. -/
theorem overflows_float32_iff {x : Binary64} :
    Overflows .float32 x ↔ x.isFinite ∧ 2 ^ 128 - 2 ^ 103 ≤ |x.value| := by
  have hwidth : width .float32 = 4 := rfl
  rw [Overflows, eq_true hwidth, true_and]
  refine and_congr_right ?_
  intro hfinite
  rw [← Bool.not_eq_true, Binary64.isFinite_narrow_iff hfinite, not_lt]

theorem encode_float32_float (count : ℕ) (o : ByteOrder) (x : Binary64)
    [Decidable (Overflows .float32 x)] :
    encode .float32 count o (.float x) =
      if Overflows .float32 x then .error (.floatTooLarge .float32)
      else .ok (Word.toBytes 4 o x.narrow.bits.toUInt64) := by
  rw [encode_float32, floatWord_float]
  split <;> rfl

/-- A unit that holds a number is read as that number, widened. -/
theorem decode_float32_of_storedAs {y : Binary32} {o : ByteOrder} {unit : Bytes}
    (h : y.StoredAs o unit) : decode .float32 o unit = some (.float y.widen) := by
  have hbits : Binary32.mk (Word.ofBytes o unit).toUInt32 = y := by
    have hnat := (toNat_bits_ofBytes o h.length_eq).trans h.positional_eq
    exact congrArg Binary32.mk (UInt32.toNat_inj.mp hnat)
  rw [← hbits]
  rfl

/-- The 32-bit code rounds correctly and refuses exactly the finite numbers from the middle on
between the largest finite value and the next one on the grid. What it reads is the same number
in the 64-bit format, which it stores as it was before, but for the quiet bit of a NaN. -/
theorem float32_rounds (count : ℕ) (o : ByteOrder) :
    (∀ x : Binary64,
      (encode .float32 count o (.float x) = .error (.floatTooLarge .float32) ↔
        x.isFinite ∧ 2 ^ 128 - 2 ^ 103 ≤ |x.value|) ∧
      (¬ (x.isFinite ∧ 2 ^ 128 - 2 ^ 103 ≤ |x.value|) →
        ∃ unit y, encode .float32 count o (.float x) = .ok unit ∧ y.StoredAs o unit ∧
          x.RoundsTo y)) ∧
    ∀ y : Binary32, ∃ unit x unit', y.StoredAs o unit ∧
      decode .float32 o unit = some (.float x) ∧ y.ExtendsTo x ∧
      encode .float32 count o (.float x) = .ok unit' ∧ y.quieted.StoredAs o unit' := by
  classical
  refine ⟨?_, ?_⟩
  · intro x
    rw [← overflows_float32_iff, encode_float32_float]
    by_cases hover : Overflows .float32 x
    · simp [hover]
    · rw [if_neg hover]
      refine ⟨by simp [hover], fun _ => ?_⟩
      have hsmall : x.isFinite → |x.value| < 2 ^ 128 - 2 ^ 103 := by
        intro hfinite
        rw [overflows_float32_iff, not_and, not_le] at hover
        exact hover hfinite
      exact ⟨_, x.narrow, rfl, x.narrow.storedAs_toBytes o, Binary64.roundsTo_narrow hsmall⟩
  · intro y
    have hstored := y.storedAs_toBytes o
    have hback := encode_float32_float count o y.widen
    rw [if_neg (not_overflows_widen y), Binary32.narrow_widen] at hback
    exact ⟨_, y.widen, _, hstored, decode_float32_of_storedAs hstored, y.extendsTo_widen, hback,
      y.quieted.storedAs_toBytes o⟩

/-- The first number that is refused lies at the middle. The one before it is stored as the
largest finite number. -/
theorem float32_rounds_middle :
    encode .float32 1 .big (.float ⟨0x47EFFFFFF0000000⟩) = .error (.floatTooLarge .float32) ∧
      ∃ unit y, encode .float32 1 .big (.float ⟨0x47EFFFFFEFFFFFFF⟩) = .ok unit ∧
        unit = [0x7F, 0x7F, 0xFF, 0xFF] ∧ y.StoredAs .big unit ∧
        (Binary64.mk 0x47EFFFFFEFFFFFFF).RoundsTo y := by
  have hmiddle : (Binary64.mk 0x47EFFFFFF0000000).value = 2 ^ 128 - 2 ^ 103 := by
    have hexponent : (Binary64.mk 0x47EFFFFFF0000000).biasedExponent = 1150 := by decide
    have htrailing : (Binary64.mk 0x47EFFFFFF0000000).trailing = 0xFFFFFF0000000 := by decide
    have hsign : (Binary64.mk 0x47EFFFFFF0000000).negative = false := by decide
    rw [Binary64.value, fieldsValue, hexponent, htrailing, hsign]
    norm_num [signFactor]
  have hbelow : (Binary64.mk 0x47EFFFFFEFFFFFFF).value = 2 ^ 128 - 2 ^ 103 - 2 ^ 75 := by
    have hexponent : (Binary64.mk 0x47EFFFFFEFFFFFFF).biasedExponent = 1150 := by decide
    have htrailing : (Binary64.mk 0x47EFFFFFEFFFFFFF).trailing = 0xFFFFFEFFFFFFF := by decide
    have hsign : (Binary64.mk 0x47EFFFFFEFFFFFFF).negative = false := by decide
    rw [Binary64.value, fieldsValue, hexponent, htrailing, hsign]
    norm_num [signFactor]
  have hencode : encode .float32 1 .big (.float ⟨0x47EFFFFFEFFFFFFF⟩) =
      .ok [0x7F, 0x7F, 0xFF, 0xFF] := by decide +kernel
  obtain ⟨hround, -⟩ := float32_rounds 1 .big
  have hlarge := (hround ⟨0x47EFFFFFF0000000⟩).1
  have hsmall := (hround ⟨0x47EFFFFFEFFFFFFF⟩).2
  rw [hmiddle] at hlarge
  rw [hbelow] at hsmall
  refine ⟨hlarge.mpr ⟨by decide, by norm_num⟩, ?_⟩
  obtain ⟨unit, y, hunit, hstored, hrounds⟩ := hsmall (by norm_num)
  exact ⟨unit, y, hunit, Except.ok.inj (hunit.symm.trans hencode), hstored, hrounds⟩

end Code
end BinaryRecord
