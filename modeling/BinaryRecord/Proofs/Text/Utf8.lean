import BinaryRecord.Text.Utf8
import Mathlib.Data.Nat.Notation

/-!
# Text there and back

The pieces of an encoded text are its characters, so a byte string that is the encoding of
some text is decoded to that text and encoded to itself again.

## Main definitions

* `Utf8.Valid`: the byte strings that encode a text.
-/

namespace BinaryRecord.Utf8
variable {bs : Bytes} {l : Lead}

/-- The byte string is the encoding of a text. -/
def Valid (bs : Bytes) : Prop := ∃ s : String, encode s = bs

/-! ## First bytes -/

/-- The meaning of a first byte, told by its value. -/
theorem lead?_ofNat {n : ℕ} (h : n < 256) : lead? (UInt8.ofNat n) =
    if n < 0x80 then some ⟨n, 0, 0x80, 0xBF⟩
    else if n < 0xC2 then none
    else if n < 0xE0 then some ⟨n - 0xC0, 1, 0x80, 0xBF⟩
    else if n < 0xF0 then
      some ⟨n - 0xE0, 2, if n = 0xE0 then 0xA0 else 0x80, if n = 0xED then 0x9F else 0xBF⟩
    else if n < 0xF5 then
      some ⟨n - 0xF0, 3, if n = 0xF0 then 0x90 else 0x80, if n = 0xF4 then 0x8F else 0xBF⟩
    else none := by
  have hbyte : (UInt8.ofNat n).toNat = n := UInt8.toNat_ofNat_of_lt' h
  simp only [lead?, UInt8.lt_iff_toNat_lt, ← UInt8.toNat_inj, hbyte]
  rfl

theorem lead?_one {v : ℕ} (h : v < 0x80) :
    lead? (UInt8.ofNat v) = some ⟨v, 0, 0x80, 0xBF⟩ := by
  rw [lead?_ofNat (by omega), if_pos h]

theorem lead?_two {d : ℕ} (hlow : 2 ≤ d) (hhigh : d < 32) :
    lead? (UInt8.ofNat (d + 192)) = some ⟨d, 1, 0x80, 0xBF⟩ := by
  rw [lead?_ofNat (by omega), if_neg (by omega), if_neg (by omega), if_pos (by omega),
    Nat.add_sub_cancel]

theorem lead?_three {d : ℕ} (h : d < 16) : lead? (UInt8.ofNat (d + 224)) =
    some ⟨d, 2, if d = 0 then 0xA0 else 0x80, if d = 13 then 0x9F else 0xBF⟩ := by
  rw [lead?_ofNat (by omega), if_neg (by omega), if_neg (by omega), if_neg (by omega),
    if_pos (by omega), Nat.add_sub_cancel]
  simp

theorem lead?_four {d : ℕ} (h : d < 5) : lead? (UInt8.ofNat (d + 240)) =
    some ⟨d, 3, if d = 0 then 0x90 else 0x80, if d = 4 then 0x8F else 0xBF⟩ := by
  rw [lead?_ofNat (by omega), if_neg (by omega), if_neg (by omega), if_neg (by omega),
    if_neg (by omega), if_pos (by omega), Nat.add_sub_cancel]
  simp

/-! ## Characters -/

theorem pieces_cons {b : UInt8} (h : lead? b = some l) :
    pieces (b :: bs) = (takeFollowing l.bits l.following l.low l.high bs).1.map Char.ofNat ::
      pieces (takeFollowing l.bits l.following l.low l.high bs).2 := by
  rw [pieces, h]

/-- A byte that follows adds six bits. -/
theorem takeFollowing_succ {bits n d : ℕ} {low high : UInt8} (hd : d < 64)
    (hlow : low.toNat ≤ d + 128) (hhigh : d + 128 ≤ high.toNat) :
    takeFollowing bits (n + 1) low high (UInt8.ofNat (d + 128) :: bs) =
      takeFollowing (bits * 64 + d) n 0x80 0xBF bs := by
  have hbyte : (UInt8.ofNat (d + 128)).toNat = d + 128 := UInt8.toNat_ofNat_of_lt' (by
    rw [UInt8.size]
    omega)
  have hrange : low ≤ UInt8.ofNat (d + 128) ∧ UInt8.ofNat (d + 128) ≤ high := by
    rw [UInt8.le_iff_toNat_le, UInt8.le_iff_toNat_le, hbyte]
    exact ⟨hlow, hhigh⟩
  rw [takeFollowing, if_pos hrange, hbyte, Nat.add_sub_cancel]

/-- A byte that follows and is not restricted by the first byte. -/
theorem takeFollowing_succ_any {bits n d : ℕ} (hd : d < 64) :
    takeFollowing bits (n + 1) 0x80 0xBF (UInt8.ofNat (d + 128) :: bs) =
      takeFollowing (bits * 64 + d) n 0x80 0xBF bs :=
  takeFollowing_succ hd (by simp) (by simp; omega)

/-- An encoded character is a piece of its own, whatever follows it. -/
theorem pieces_utf8EncodeChar (c : Char) (bs : Bytes) :
    pieces (String.utf8EncodeChar c ++ bs) = some c :: pieces bs := by
  obtain ⟨v, hv⟩ : ∃ v, v = c.val.toNat := ⟨_, rfl⟩
  have hchar : ∀ n, n = v → Char.ofNat n = c := by
    rintro n rfl
    rw [hv]
    exact Char.ofNat_toNat c
  have hvalid : v < 0xD800 ∨ 0xDFFF < v ∧ v < 0x110000 := by
    rw [hv]
    exact c.valid
  simp only [String.utf8EncodeChar, ← hv]
  split
  · rw [List.singleton_append, pieces_cons (lead?_one (by omega)), takeFollowing, Option.map_some,
      hchar v rfl]
  split
  · rw [Nat.mod_eq_of_lt (by omega : v / 64 < 32), List.cons_append, List.singleton_append,
      pieces_cons (lead?_two (by omega) (by omega)), takeFollowing_succ_any (by omega),
      takeFollowing, Option.map_some, hchar _ (by dsimp only; omega)]
  split
  · -- The range of the second byte leaves out the surrogates.
    have hlow : (if v / 4096 = 0 then 0xA0 else 0x80 : UInt8).toNat ≤ v / 64 % 64 + 128 := by
      split
      · simp
        omega
      · simp
    have hhigh : v / 64 % 64 + 128 ≤ (if v / 4096 = 13 then 0x9F else 0xBF : UInt8).toNat := by
      split <;> simp <;> omega
    rw [Nat.mod_eq_of_lt (by omega : v / 4096 < 16), List.cons_append, List.cons_append,
      List.singleton_append, pieces_cons (lead?_three (by omega)),
      takeFollowing_succ (by omega) hlow hhigh, takeFollowing_succ_any (by omega), takeFollowing,
      Option.map_some, hchar _ (by dsimp only; omega)]
  · -- The range of the second byte ends at the last code point.
    have hlow : (if v / 262144 = 0 then 0x90 else 0x80 : UInt8).toNat ≤ v / 4096 % 64 + 128 := by
      split
      · simp
        omega
      · simp
    have hhigh : v / 4096 % 64 + 128 ≤ (if v / 262144 = 4 then 0x8F else 0xBF : UInt8).toNat := by
      split <;> simp <;> omega
    rw [Nat.mod_eq_of_lt (by omega : v / 262144 < 8), List.cons_append, List.cons_append,
      List.cons_append, List.singleton_append, pieces_cons (lead?_four (by omega)),
      takeFollowing_succ (by omega) hlow hhigh, takeFollowing_succ_any (by omega),
      takeFollowing_succ_any (by omega), takeFollowing, Option.map_some,
      hchar _ (by dsimp only; omega)]

/-! ## Texts -/

theorem pieces_encode (s : String) : pieces (encode s) = s.toList.map some := by
  unfold encode
  induction s.toList with
  | nil => rw [List.flatMap_nil, pieces, List.map_nil]
  | cons c cs ih => rw [List.flatMap_cons, pieces_utf8EncodeChar, ih, List.map_cons]

theorem decode?_encode (s : String) : decode? (encode s) = some s.toList := by
  rw [decode?, pieces_encode, List.mapM_map]
  exact (List.mapM_pure).trans (congrArg some s.toList.map_id)

theorem decodeLossy_encode (s : String) : decodeLossy (encode s) = s := by
  simp [decodeLossy, pieces_encode, Function.comp_def]

/-- A byte string that encodes a text is what its text encodes to. -/
theorem Valid.encode_decodeLossy (h : Valid bs) : encode (decodeLossy bs) = bs := by
  obtain ⟨s, rfl⟩ := h
  rw [decodeLossy_encode]

end BinaryRecord.Utf8
