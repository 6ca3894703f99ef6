import BinaryRecord.Proofs.Code.Canonical
import BinaryRecord.Proofs.Floating.Conversion

/-!
# The unit that comes back

What a unit is read as can be stored again and gives the unit back, but for the
room behind the data of a string with a length byte, its length byte if that
promises more than there is, and the quiet bit of a 32-bit NaN.

## Main definitions

* `Code.normalUnit`: the unit that is stored again.
-/

namespace BinaryRecord.Code

/-- A unit of the 32-bit format with the quiet bit of a signalling NaN set. The bit is
the second highest of the third byte of weight. -/
def quietUnit (o : ByteOrder) (unit : Bytes) : Bytes :=
  if (Binary32.mk (Word.ofBytes o unit).toUInt32).isSignalling then
    o.arrange ((o.arrange unit).modify 2 (· ||| 0x40))
  else unit

/-- A string behind a length byte with the length lowered to the room there is and the
bytes behind the data zeroed. -/
def settledUnit : Bytes → Bytes
  | [] => []
  | n :: data =>
    let kept := min n.toNat data.length
    UInt8.ofNat kept :: data.take kept ++ fill (data.length - kept)

/-- The unit that is stored again for what a unit was read as. -/
def normalUnit (c : Code) (o : ByteOrder) (unit : Bytes) : Bytes :=
  match c with
  | .float32 => quietUnit o unit
  | .pascalString => settledUnit unit
  | _ => unit

theorem toNat_or_quiet {b : UInt8} (hlow : 0x80 ≤ b.toNat) (hhigh : b.toNat < 0xC0) :
    (b ||| 0x40).toNat = b.toNat + 0x40 := by
  obtain ⟨r, hr⟩ := Nat.exists_eq_add_of_le hlow
  have hlt : r < 2 ^ 6 := by omega
  have hclear : 0x80 + r = 0x80 ||| r := Nat.two_pow_add_eq_or_of_lt hlt 2
  have hset : 0xC0 + r = 0xC0 ||| r := Nat.two_pow_add_eq_or_of_lt hlt 3
  calc (b ||| 0x40).toNat = (0x80 ||| r) ||| 0x40 := by rw [UInt8.toNat_or, hr, hclear]; rfl
    _ = 0xC0 ||| r := by rw [Nat.or_assoc, Nat.or_comm r, ← Nat.or_assoc]; rfl
    _ = b.toNat + 0x40 := by omega

/-- Setting the bit in the third byte adds its weight, for it is clear. -/
theorem positional_modify_quiet {bs : Bytes} (hlen : bs.length = 4) {x : Binary32}
    (hbits : x.bits.toNat = Word.positional bs) (hsig : x.isSignalling) :
    Word.positional (bs.modify 2 (· ||| 0x40)) = Word.positional bs + Binary32.quietBit := by
  obtain ⟨hinf, hquiet⟩ := Binary32.isSignalling_iff.mp hsig
  match bs, hlen with
  | [b₀, b₁, b₂, b₃], _ =>
    have h₀ := b₀.toNat_lt
    have h₁ := b₁.toNat_lt
    have h₂ := b₂.toNat_lt
    have h₃ := b₃.toNat_lt
    simp only [Word.positional_cons, Word.positional_nil] at hbits
    simp only [Binary32.magnitude, Binary32.infinity, Binary32.quietBit, Binary32.signBit] at *
    have hbyte := toNat_or_quiet (b := b₂) (by omega) (by omega)
    simp only [List.modify_succ_cons, List.modify_zero_cons, Word.positional_cons,
      Word.positional_nil, hbyte]
    omega

/-- The number in a unit of four bytes has the value of the bytes as its pattern. -/
theorem toNat_bits_ofBytes (o : ByteOrder) {unit : Bytes} (hlen : unit.length = 4) :
    (Binary32.mk (Word.ofBytes o unit).toUInt32).bits.toNat =
      Word.positional (o.arrange unit) := by
  have hlt := Word.positional_lt (o.arrange unit)
  rw [ByteOrder.length_arrange, hlen] at hlt
  rw [UInt64.toNat_toUInt32, Word.toNat_ofBytes_of_length_le (by omega)]
  exact Nat.mod_eq_of_lt hlt

theorem toBytes_quieted (o : ByteOrder) {unit : Bytes} (hlen : unit.length = 4) :
    Word.toBytes 4 o (Binary32.mk (Word.ofBytes o unit).toUInt32).quieted.bits.toUInt64 =
      quietUnit o unit := by
  obtain ⟨x, hx⟩ : ∃ x, x = Binary32.mk (Word.ofBytes o unit).toUInt32 := ⟨_, rfl⟩
  have hbits : x.bits.toNat = Word.positional (o.arrange unit) := by
    rw [hx, toNat_bits_ofBytes o hlen]
  rw [quietUnit, ← hx]
  by_cases hsig : x.isSignalling
  · rw [if_pos hsig]
    have hquiet : Word.positional ((o.arrange unit).modify 2 (· ||| 0x40)) =
        Word.positional (o.arrange unit) + Binary32.quietBit :=
      positional_modify_quiet (by simpa using hlen) hbits hsig
    have hlt' := Word.positional_lt ((o.arrange unit).modify 2 (· ||| 0x40))
    rw [List.length_modify, ByteOrder.length_arrange, hlen, hquiet] at hlt'
    have harrange : o.arrange (Word.toBytes 4 o x.quieted.bits.toUInt64) =
        (o.arrange unit).modify 2 (· ||| 0x40) := by
      refine Word.positional_inj (by simp [hlen]) ?_
      rw [Word.positional_toBytes o _ (by decide), hquiet, UInt32.toNat_toUInt64,
        Binary32.toNat_bits_quieted hsig, hbits, Nat.mod_eq_of_lt hlt']
    simpa using congrArg o.arrange harrange
  · rw [if_neg hsig, Binary32.quieted, if_neg hsig]
    have hword : x.bits.toUInt64 = Word.ofBytes o unit := by
      rw [← UInt64.toNat_inj, UInt32.toNat_toUInt64, hbits,
        Word.toNat_ofBytes_of_length_le (by omega)]
    rw [hword, Word.toBytes_ofBytes o hlen (by decide)]

/-! ## Storing what was read -/

theorem encode_decode_signed {c : Code} (hkind : c.kind = .signed) (o : ByteOrder) {unit : Bytes}
    (hlen : unit.length = c.width) :
    (c.integerWord (.int (Word.signExtend c.width (Word.ofBytes o unit)))).map
      (Word.toBytes c.width o) = .ok unit := by
  obtain ⟨n, hn⟩ : ∃ n, n = (Word.signExtend c.width (Word.ofBytes o unit)).toInt := ⟨_, rfl⟩
  have hword := Word.toInt_signExtend c.one_le_width c.width_le (Word.ofBytes o unit)
  rw [← hn] at hword
  have hin : c.lowest ≤ n ∧ n ≤ c.highest := by
    rw [mem_range_signed_iff hkind, hword, Int.bmod_bmod]
  have hmod : n % 256 ^ c.width = (Word.ofBytes o unit).toNat % 256 ^ c.width := by
    rw [hword]
    exact_mod_cast Int.bmod_emod
  refine Except.map_eq_ok_iff.mpr ⟨.ofInt n, ?_, ?_⟩
  · exact integerWord_eq_ok_iff.mpr ⟨n, by rw [Value.integer?, hn], .inr hin, rfl⟩
  · rw [Word.toBytes_ofInt_of_emod_eq c.width_le o hmod, Word.toBytes_ofBytes o hlen c.width_le]

theorem encode_decode_unsigned {c : Code} (hkind : c.kind = .unsigned) (o : ByteOrder)
    {unit : Bytes} (hlen : unit.length = c.width) :
    (c.integerWord (.uint (Word.ofBytes o unit))).map (Word.toBytes c.width o) = .ok unit := by
  have hlt := Word.positional_lt (o.arrange unit)
  rw [ByteOrder.length_arrange, hlen,
    ← Word.toNat_ofBytes_of_length_le (by rw [hlen]; exact c.width_le)] at hlt
  have hin : c.lowest ≤ (Word.ofBytes o unit).toNat ∧ (Word.ofBytes o unit).toNat ≤ c.highest := by
    rw [mem_range_unsigned_iff hkind]
    exact_mod_cast Nat.mod_eq_of_lt hlt
  refine Except.map_eq_ok_iff.mpr ⟨.ofInt (Word.ofBytes o unit).toNat, ?_, ?_⟩
  · exact integerWord_eq_ok_iff.mpr ⟨_, rfl, .inr hin, rfl⟩
  · rw [Word.toBytes_ofInt_of_emod_eq c.width_le o rfl, Word.toBytes_ofBytes o hlen c.width_le]

/-- What was widened is not too large to be narrowed. -/
theorem not_overflows_widen (x : Binary32) : ¬ Overflows .float32 x.widen := by
  rintro ⟨-, hfin, hnarrow⟩
  rw [Binary32.isFinite_widen] at hfin
  rw [Binary32.narrow_widen_of_isFinite hfin, hfin] at hnarrow
  exact absurd hnarrow (by decide)

theorem encode_decode_float32 (o : ByteOrder) {unit : Bytes} (hlen : unit.length = 4) :
    (floatWord .float32 (.float (Binary32.mk (Word.ofBytes o unit).toUInt32).widen)).map
      (Word.toBytes 4 o) = .ok (quietUnit o unit) := by
  obtain ⟨x, hx⟩ : ∃ x, x = Binary32.mk (Word.ofBytes o unit).toUInt32 := ⟨_, rfl⟩
  rw [← toBytes_quieted o hlen, ← hx, ← Binary32.narrow_widen]
  have hfits := not_overflows_widen x
  exact Except.map_eq_ok_iff.mpr ⟨_, floatWord_eq_ok_iff.mpr ⟨_, rfl, hfits, rfl⟩, rfl⟩

theorem encode_decode_float64 (o : ByteOrder) {unit : Bytes} (hlen : unit.length = 8) :
    (floatWord .float64 (.float ⟨Word.ofBytes o unit⟩)).map (Word.toBytes 8 o) = .ok unit := by
  have hfits : ¬ Overflows .float64 ⟨Word.ofBytes o unit⟩ := by simp [Overflows, width, entry]
  refine Except.map_eq_ok_iff.mpr ⟨_, floatWord_eq_ok_iff.mpr ⟨_, rfl, hfits, rfl⟩, ?_⟩
  exact Word.toBytes_ofBytes o hlen (by decide)

theorem pascalUnit_take (n : UInt8) (data : Bytes) :
    pascalUnit (n :: data).length (data.take n.toNat) = settledUnit (n :: data) := by
  have hn := n.toNat_lt
  have hroom : pascalRoom (n :: data).length (data.take n.toNat) = min n.toNat data.length := by
    simp only [pascalRoom, pascalLimit, List.length_cons, List.length_take]
    omega
  have htake : (data.take n.toNat).take (min n.toNat data.length) =
      data.take (min n.toNat data.length) := by
    rw [List.take_take, Nat.min_right_comm, Nat.min_self]
  have hfill : (n :: data).length - (min n.toNat data.length + 1) =
      data.length - min n.toNat data.length := by
    rw [List.length_cons, Nat.add_sub_add_right]
  rw [pascalUnit, settledUnit, hroom, htake, hfill]

theorem encode_float32 (count : ℕ) (o : ByteOrder) (v : Value) :
    encode .float32 count o v = (floatWord .float32 v).map (Word.toBytes 4 o) := rfl

theorem isString_of_integer {c : Code} (h : c.kind = .signed ∨ c.kind = .unsigned) :
    c.isString = false := by
  cases c <;> simp_all [kind, entry, isString]

theorem normalUnit_of_integer {c : Code} (h : c.kind = .signed ∨ c.kind = .unsigned)
    (o : ByteOrder) (unit : Bytes) : c.normalUnit o unit = unit := by
  cases c <;> simp_all [kind, entry, normalUnit]

/-- Storing what a unit was read as gives the unit back in normal form. -/
theorem encode_decode {c : Code} {o : ByteOrder} {unit : Bytes} {v : Value}
    (hlen : c.isString = false → unit.length = c.width) (h : c.decode o unit = some v) :
    c.encode unit.length o v = .ok (c.normalUnit o unit) := by
  cases hkind : c.kind with
  | signed =>
    have hwidth := hlen (isString_of_integer (.inl hkind))
    simp only [decode, hkind, Option.some.injEq] at h
    simp only [encode, hkind, ← h, encode_decode_signed hkind o hwidth,
      normalUnit_of_integer (.inl hkind)]
  | unsigned =>
    have hwidth := hlen (isString_of_integer (.inr hkind))
    simp only [decode, hkind, Option.some.injEq] at h
    simp only [encode, hkind, ← h, encode_decode_unsigned hkind o hwidth,
      normalUnit_of_integer (.inr hkind)]
  | float =>
    obtain rfl | rfl : c = .float32 ∨ c = .float64 := by cases c <;> simp_all [kind, entry]
    · obtain rfl : Value.float (Binary32.mk (Word.ofBytes o unit).toUInt32).widen = v := by
        simpa [decode, kind, width, entry] using h
      rw [encode_float32, encode_decode_float32 o (hlen rfl), normalUnit]
    · obtain rfl : Value.float ⟨Word.ofBytes o unit⟩ = v := by
        simpa [decode, kind, width, entry] using h
      exact encode_decode_float64 o (hlen rfl)
  | fixedString =>
    obtain rfl : c = .fixedString := by cases c <;> simp_all [kind, entry]
    obtain rfl := Option.some.inj h
    change Except.ok (fixedUnit unit.length unit) = .ok unit
    simp [fixedUnit, fill]
  | pascalString =>
    obtain rfl : c = .pascalString := by cases c <;> simp_all [kind, entry]
    obtain ⟨data, hdata, rfl⟩ := Option.map_eq_some_iff.mp h
    cases unit with
    | nil => cases hdata
    | cons n rest =>
      obtain rfl := Option.some.inj hdata
      exact congrArg Except.ok (pascalUnit_take n rest)
  | pad => simp [decode, hkind] at h

example : normalUnit .pascalString .big [9, 65, 66] = [2, 65, 66] := by decide

/-! ## Units in normal form -/

/-- A unit of the 32-bit format is in normal form unless it is a signalling NaN. -/
theorem quietUnit_eq_self_iff (o : ByteOrder) {unit : Bytes} (hlen : unit.length = 4) :
    quietUnit o unit = unit ↔
      (Binary32.mk (Word.ofBytes o unit).toUInt32).isSignalling = false := by
  constructor
  · intro heq
    by_contra hsig
    have hsig := Bool.eq_true_of_not_eq_false hsig
    have hquiet := positional_modify_quiet (by simpa using hlen) (toNat_bits_ofBytes o hlen) hsig
    rw [quietUnit, if_pos hsig] at heq
    have hsame : (o.arrange unit).modify 2 (· ||| 0x40) = o.arrange unit := by
      simpa using congrArg o.arrange heq
    rw [hsame] at hquiet
    exact absurd hquiet (Nat.ne_of_lt (Nat.lt_add_of_pos_right (by decide)))
  · intro hsig
    rw [quietUnit, hsig, if_neg Bool.false_ne_true]

/-- A string behind a length byte is in normal form if the byte promises no more than there
is, and nothing but zeros stands behind the data. -/
theorem settledUnit_eq_self_iff (n : UInt8) (data : Bytes) :
    settledUnit (n :: data) = n :: data ↔
      n.toNat ≤ data.length ∧ ∀ b ∈ data.drop n.toNat, b = 0 := by
  by_cases h : n.toNat ≤ data.length
  · have hzeros : fill (data.length - n.toNat) = data.drop n.toNat ↔
        ∀ b ∈ data.drop n.toNat, b = 0 := by
      rw [eq_comm, fill, List.eq_replicate_iff, List.length_drop]
      simp [fillByte]
    have hsplit : data.take n.toNat ++ fill (data.length - n.toNat) = data ↔
        fill (data.length - n.toNat) = data.drop n.toNat := by
      have hdata := List.take_append_drop n.toNat data
      constructor
      · intro heq
        exact List.append_cancel_left (heq.trans hdata.symm)
      · intro heq
        rw [heq, hdata]
    simp [settledUnit, hsplit, hzeros, h]
  · have hlt := n.toNat_lt
    have hbyte : UInt8.ofNat (min n.toNat data.length) ≠ n := by
      intro heq
      have hvalue := congrArg UInt8.toNat heq
      rw [UInt8.toNat_ofNat'] at hvalue
      omega
    simp [settledUnit, hbyte, h]

/-- A string that was stored behind its length byte is in normal form. -/
theorem settledUnit_pascalUnit (count : ℕ) (data : Bytes) :
    settledUnit (pascalUnit count data) = pascalUnit count data := by
  have htake := length_take_pascalRoom count data
  rw [pascalUnit, List.cons_append, settledUnit_eq_self_iff, toNat_ofNat_pascalRoom,
    List.drop_left' htake]
  constructor
  · rw [List.length_append, htake]
    omega
  · intro b hb
    exact List.eq_of_mem_replicate hb

/-- What was stored is in normal form. -/
theorem normalUnit_encode {c : Code} {count : ℕ} {o : ByteOrder} {v : Value} {unit : Bytes}
    (h : c.encode count o v = .ok unit) : c.normalUnit o unit = unit := by
  cases c with
  | float32 =>
    rw [encode_float32] at h
    obtain ⟨w, hw, rfl⟩ := Except.map_eq_ok_iff.mp h
    obtain ⟨x, rfl, -, rfl⟩ := floatWord_eq_ok_iff.mp hw
    have hback : Word.ofBytes o (Word.toBytes 4 o (floatBits .float32 x)) = floatBits .float32 x :=
      ofBytes_toBytes_floatBits rfl o x
    have hbits : (floatBits .float32 x).toUInt32 = x.narrow.bits :=
      UInt32.toUInt32_toUInt64 x.narrow.bits
    rw [normalUnit, quietUnit_eq_self_iff o (Word.length_toBytes ..), hback, hbits]
    exact x.isSignalling_narrow
  | pascalString =>
    obtain ⟨data, -, rfl⟩ := Except.map_eq_ok_iff.mp h
    exact settledUnit_pascalUnit count data
  | _ => rfl

/-! ## Reading units in normal form -/

/-- A signalling NaN is read as the quiet one. -/
theorem decode_quietUnit (o : ByteOrder) {unit : Bytes} (hlen : unit.length = 4) :
    decode .float32 o (quietUnit o unit) = decode .float32 o unit := by
  obtain ⟨x, hx⟩ : ∃ x, x = Binary32.mk (Word.ofBytes o unit).toUInt32 := ⟨_, rfl⟩
  have hword : (Word.ofBytes o (quietUnit o unit)).toUInt32 = x.quieted.bits := by
    have hlt := x.quieted.bits.toNat_lt
    rw [← toBytes_quieted o hlen, ← hx, ← UInt32.toNat_inj, UInt64.toNat_toUInt32,
      Word.toNat_ofBytes_toBytes o _ (by decide), UInt32.toNat_toUInt64]
    omega
  change some (Value.float (Binary32.widen ⟨_⟩)) = some (.float (Binary32.widen ⟨_⟩))
  rw [hword, ← hx, Binary32.widen_quieted]

theorem pascalData_settledUnit (unit : Bytes) :
    pascalData (settledUnit unit) = pascalData unit := by
  cases unit with
  | nil => rfl
  | cons n data =>
    have hlt := n.toNat_lt
    have hbyte : (UInt8.ofNat (min n.toNat data.length)).toNat = min n.toNat data.length := by
      rw [UInt8.toNat_ofNat']
      omega
    have hkept : (data.take (min n.toNat data.length)).length = min n.toNat data.length := by
      rw [List.length_take]
      omega
    rw [settledUnit, List.cons_append, pascalData, pascalData, hbyte, List.take_left' hkept,
      List.take_eq_take_iff.mpr]
    omega

/-- A unit and its normal form are read as the same value. -/
theorem decode_normalUnit {c : Code} (o : ByteOrder) {unit : Bytes}
    (hlen : c.isString = false → unit.length = c.width) :
    c.decode o (c.normalUnit o unit) = c.decode o unit := by
  cases c with
  | float32 => exact decode_quietUnit o (hlen rfl)
  | pascalString => exact congrArg (Option.map Value.bytes) (pascalData_settledUnit unit)
  | _ => rfl

end BinaryRecord.Code
