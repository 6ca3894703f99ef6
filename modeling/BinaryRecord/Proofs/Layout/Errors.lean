import BinaryRecord.Proofs.Format.Fault
import BinaryRecord.Proofs.Layout.Loose

/-!
# What can go wrong

Every error is about one of four things: the format, a lack of values or bytes, a value, or the
room in a buffer. They are looked for in this order. Reading a format finds nothing but faults of
the format. Packing looks for a lack first, and then stores the values one by one. Unpacking can
only lack bytes.

## Main definitions

* `Error.topic`: what an error is about.
* `Layout.FirstRefused`: the error of the first value that cannot be stored.
-/

namespace BinaryRecord

/-! ## Topics -/

/-- What an error is about. -/
inductive Error.Topic where
  | format
  | shortage
  | value
  | room
  deriving DecidableEq, Repr

namespace Error
variable {e : Error}

/-- What an error is about. -/
def topic : Error → Topic
  | unknownCode .. | unfinishedGroup _ | zeroRepeat _ | tooLarge _ | interruptedCount _ => .format
  | tooFewValues .. | tooFewBytes .. => .shortage
  | outOfRange .. | floatTooLarge _ | unsuitableValue .. => .value
  | noRoom .. => .room

theorem concernsFormat_iff : e.concernsFormat = true ↔ e.topic = .format := by
  cases e <;> simp [concernsFormat, topic]

theorem isShortage_iff : e.isShortage = true ↔ e.topic = .shortage := by
  cases e <;> simp [isShortage, topic]

end Error

/-! ## Reading a format -/

theorem Fault.topic_eq {before : List Char} {c : Char} {e : Error} (h : Fault before c e) :
    e.topic = .format := by
  cases h <;> rfl

/-- Reading a format finds nothing but faults of the format. -/
theorem Layout.topic_of_parse {text : String} {e : Error} (h : Layout.parse text = .error e) :
    e.topic = .format := by
  have hfirst := (Scanner.run_eq_error_iff Scanner.standsBehind_start (by simp)).mp h
  rcases hfirst with ⟨i, ⟨c, -, hfault⟩, -⟩ | ⟨-, -, rfl⟩
  · exact hfault.topic_eq
  · rfl

/-! ## Storing a value -/

namespace Code
variable {c : Code} {v : Value} {e : Error}

theorem topic_of_integerWord (h : c.integerWord v = .error e) : e.topic = .value := by
  unfold integerWord at h
  split at h
  · cases h
    rfl
  · split at h
    · cases h
    · cases h
      rfl

theorem topic_of_floatWord (h : c.floatWord v = .error e) : e.topic = .value := by
  unfold floatWord at h
  split at h
  · cases h
    rfl
  · split at h
    · dsimp only at h
      split at h
      · cases h
        rfl
      · cases h
    · cases h

theorem topic_of_stringData (h : c.stringData v = .error e) : e.topic = .value := by
  unfold stringData at h
  split at h
  · cases h
    rfl
  · cases h

/-- Storing a value fails only because of the value. -/
theorem topic_of_encode {n : ℕ} {o : ByteOrder} (h : c.encode n o v = .error e) :
    e.topic = .value := by
  unfold encode at h
  cases hkind : c.kind <;> simp only [hkind] at h
  case pad => cases h
  case signed | unsigned => exact topic_of_integerWord (Except.map_eq_error_iff.mp h)
  case float => exact topic_of_floatWord (Except.map_eq_error_iff.mp h)
  case fixedString | pascalString => exact topic_of_stringData (Except.map_eq_error_iff.mp h)

end Code

namespace Layout
variable {layout : Layout} {mode : Mode} {vs : List Value} {bs buffer : Bytes} {offset : ℕ}
  {e : Error}

/-- The error is that of the first value that cannot be stored in its slot. -/
def FirstRefused (layout : Layout) (vs : List Value) (e : Error) : Prop :=
  ∃ (j : ℕ) (g : Group) (v : Value), layout.slots[j]? = some g ∧ vs[j]? = some v ∧
    g.encodeUnit v = .error e ∧
    ∀ i < j, ∃ (g : Group) (v : Value) (unit : Bytes), layout.slots[i]? = some g ∧
      vs[i]? = some v ∧ g.encodeUnit v = .ok unit

theorem FirstRefused.topic_eq (h : layout.FirstRefused vs e) : e.topic = .value := by
  obtain ⟨j, g, v, -, -, hrefused, -⟩ := h
  exact Code.topic_of_encode hrefused

theorem all_encodings_eq_error_iff :
    Except.all (layout.encodings vs) = .error e ↔ layout.FirstRefused vs e := by
  simp only [Except.all_eq_error_iff, encodings, List.getElem?_zipWith_eq_some]
  constructor
  · rintro ⟨j, ⟨g, v, hg, hv, hrefused⟩, hbefore⟩
    refine ⟨j, g, v, hg, hv, hrefused, ?_⟩
    intro i hi
    obtain ⟨unit, g, v, hg, hv, hstored⟩ := hbefore i hi
    exact ⟨g, v, unit, hg, hv, hstored⟩
  · rintro ⟨j, g, v, hg, hv, hrefused, hbefore⟩
    refine ⟨j, ⟨g, v, hg, hv, hrefused⟩, ?_⟩
    intro i hi
    obtain ⟨g, v, unit, hg, hv, hstored⟩ := hbefore i hi
    exact ⟨unit, g, v, hg, hv, hstored⟩

/-! ## Packing and unpacking -/

/-- Loose packing fails only at a value under a group that is covered. -/
theorem pack_loose_eq_error_iff : layout.pack .loose vs = .error e ↔
    FirstRefused (layout.take (layout.covered Group.valueCount vs.length)) vs e := by
  rw [pack_loose_eq_pack_strict_take, pack_strict_of_le (valueCount_take_covered_le layout _),
    Except.map_eq_error_iff, all_encodings_eq_error_iff]

/-- Packing that does not lack values in strict operation fails as loose packing does. -/
theorem pack_eq_pack_loose (h : ¬ (mode = .strict ∧ vs.length < layout.valueCount)) :
    layout.pack mode vs = layout.pack .loose vs := by
  cases mode with
  | loose => rfl
  | strict => exact pack_strict_eq_pack_loose (by simpa using h)

theorem pack_of_lacking (h : mode = .strict ∧ vs.length < layout.valueCount) :
    layout.pack mode vs = .error (.tooFewValues layout.valueCount vs.length) := by
  obtain ⟨rfl, hlack⟩ := h
  exact pack_strict_of_lt hlack

/-- Strict packing reports a lack of values exactly if there is one. -/
theorem exists_tooFewValues_iff :
    (∃ needed available, layout.pack .strict vs = .error (.tooFewValues needed available)) ↔
      vs.length < layout.valueCount := by
  constructor
  · rintro ⟨needed, available, h⟩
    by_contra hnot
    rw [pack_strict_eq_pack_loose (Nat.not_lt.mp hnot), pack_loose_eq_error_iff] at h
    cases h.topic_eq
  · intro hlack
    exact ⟨_, _, pack_strict_of_lt hlack⟩

/-- Packing fails for lack of values or because of a value. -/
theorem topic_of_pack (h : layout.pack mode vs = .error e) :
    e.topic = .shortage ∨ e.topic = .value := by
  by_cases hlack : mode = .strict ∧ vs.length < layout.valueCount
  · rw [pack_of_lacking hlack] at h
    obtain rfl := Except.error.inj h
    exact .inl rfl
  · rw [pack_eq_pack_loose hlack, pack_loose_eq_error_iff] at h
    exact .inr h.topic_eq

/-- Packing into a buffer fails as packing does, and otherwise only for lack of room. -/
theorem packAt_fst_eq_error_iff : (layout.packAt mode offset vs buffer).1 = .error e ↔
    layout.pack mode vs = .error e ∨
      ∃ packed, layout.pack mode vs = .ok packed ∧ buffer.length < offset + packed.length ∧
        e = .noRoom packed.length (buffer.length - offset) := by
  rw [packAt]
  cases layout.pack mode vs with
  | error e' => simp
  | ok packed =>
    by_cases hroom : offset + packed.length ≤ buffer.length
    · have hif : offset ≤ buffer.length ∧ packed.length ≤ buffer.length - offset := by omega
      simp [hif, hroom]
    · have hif : ¬ (offset ≤ buffer.length ∧ packed.length ≤ buffer.length - offset) := by omega
      simp [hif, Nat.not_le.mp hroom, eq_comm]

/-- Packing into a buffer fails as packing does, unless it is for lack of room. -/
theorem packAt_fst_eq_error_iff_of_topic (h : e.topic ≠ .room) :
    (layout.packAt mode offset vs buffer).1 = .error e ↔ layout.pack mode vs = .error e := by
  rw [packAt_fst_eq_error_iff, or_iff_left_iff_imp]
  rintro ⟨packed, -, -, rfl⟩
  exact absurd rfl h

/-- Packing into a buffer finds nothing wrong with the format. -/
theorem topic_of_packAt (h : (layout.packAt mode offset vs buffer).1 = .error e) :
    e.topic ≠ .format := by
  rcases packAt_fst_eq_error_iff.mp h with hpack | ⟨packed, -, -, rfl⟩
  · rcases topic_of_pack hpack with htopic | htopic <;> simp [htopic]
  · simp [Error.topic]

/-- Unpacking fails only for lack of bytes in strict operation. -/
theorem unpack_eq_error_iff : layout.unpack mode bs = .error e ↔
    mode = .strict ∧ bs.length < layout.byteLength ∧
      e = .tooFewBytes layout.byteLength bs.length := by
  cases mode with
  | loose => simp [unpack_loose]
  | strict =>
    rw [unpack_strict_eq_ite, unpack_loose]
    by_cases h : layout.byteLength ≤ bs.length
    · simp [h]
    · simp [h, Nat.not_le.mp h, eq_comm]

/-- Unpacking finds nothing wrong with the format. -/
theorem topic_of_unpack (h : layout.unpack mode bs = .error e) : e.topic ≠ .format := by
  obtain ⟨-, -, rfl⟩ := unpack_eq_error_iff.mp h
  simp [Error.topic]

end Layout
end BinaryRecord
