import BinaryRecord.Layout.Parse
import BinaryRecord.Proofs.Except

/-!
# Steps of the scan

Digits, markers, blanks and type codes are different characters, so each step of
the scan does one of four things. What a run does is told from its first step.

## Main definitions

* `Scanner.Step`: the four things that a step can do.
-/

namespace BinaryRecord.Scanner
variable {s s' : Scanner} {c : Char} {g? : Option Group}

/-! ## Classes of characters -/

theorem marker_cases {o : ByteOrder} (h : ByteOrder.ofMarker? c = some o) :
    c = '@' ∨ c = '=' ∨ c = '<' ∨ c = '>' ∨ c = '!' := by
  refine Decidable.byContradiction fun hnot => ?_
  simp only [not_or] at hnot
  simp [ByteOrder.ofMarker?, ByteOrder.nativeMarker, ByteOrder.standardMarker,
    ByteOrder.littleMarker, ByteOrder.bigMarker, ByteOrder.networkMarker, hnot] at h

theorem digit?_of_marker {o : ByteOrder} (h : ByteOrder.ofMarker? c = some o) :
    digit? c = none := by
  rcases marker_cases h with rfl | rfl | rfl | rfl | rfl <;> decide

theorem blank_cases (h : isBlank c = true) :
    c = ' ' ∨ c = '\t' ∨ c = '\n' ∨ c = '\x0c' ∨ c = '\r' := by
  simpa [isBlank] using h

theorem digit?_of_blank (h : isBlank c = true) : digit? c = none := by
  rcases blank_cases h with rfl | rfl | rfl | rfl | rfl <;> decide

theorem ofMarker?_of_blank (h : isBlank c = true) : ByteOrder.ofMarker? c = none := by
  rcases blank_cases h with rfl | rfl | rfl | rfl | rfl <;> decide

theorem digit?_char (code : Code) : digit? code.char = none := by cases code <;> decide

theorem ofMarker?_char (code : Code) : ByteOrder.ofMarker? code.char = none := by
  cases code <;> decide

theorem isBlank_char (code : Code) : isBlank code.char = false := by cases code <;> decide

/-! ## One step -/

/-- The count before the next digit is taken in. -/
def digits (s : Scanner) : RepeatCount := s.pending.getD ⟨0, s.position⟩

/-- The count of a group that is closed now. -/
def count (s : Scanner) : RepeatCount := s.pending.getD ⟨1, s.position⟩

/-- What a step of the scan can do. -/
inductive Step (s : Scanner) : Char → Scanner → Option Group → Prop where
  /-- A digit extends the pending count. -/
  | digit {c : Char} {d : ℕ} (hdigit : digit? c = some d)
      (hlimit : s.digits.value * 10 + d ≤ repeatLimit) :
      Step s c { s with
        position := s.position + 1
        pending := some ⟨s.digits.value * 10 + d, s.digits.start⟩ } none
  /-- A marker changes the order. -/
  | marker {c : Char} {o : ByteOrder} (hmarker : ByteOrder.ofMarker? c = some o) :
      Step s c { s with position := s.position + 1, order := o } none
  /-- A blank is passed between groups. -/
  | blank {c : Char} (hblank : isBlank c = true) (hpending : s.pending = none) :
      Step s c { s with position := s.position + 1 } none
  /-- A type code closes a group. -/
  | close (code : Code) (hcount : s.count.value ≠ 0)
      (htotal : s.total + (Group.ofCode s.count.value code s.order).byteLength ≤ byteLimit) :
      Step s code.char
        ⟨s.position + 1, s.order,
          s.total + (Group.ofCode s.count.value code s.order).byteLength, none⟩
        (some (Group.ofCode s.count.value code s.order))

theorem step_of_digit {d : ℕ} (h : digit? c = some d) :
    s.step c = (s.pushDigit d).map fun s => (s, none) := by
  simp only [step, h]

theorem step_of_marker {o : ByteOrder} (h : ByteOrder.ofMarker? c = some o) :
    s.step c = .ok ({ s with position := s.position + 1, order := o }, none) := by
  simp only [step, digit?_of_marker h, h]

theorem step_of_blank (h : isBlank c = true) :
    s.step c = if s.pending.isSome then .error (.interruptedCount s.position)
      else .ok ({ s with position := s.position + 1 }, none) := by
  simp only [step, digit?_of_blank h, ofMarker?_of_blank h, h, if_true]

theorem step_char (code : Code) :
    s.step code.char = (s.close code).map fun p => (p.1, some p.2) := by
  simp only [step, digit?_char, ofMarker?_char, isBlank_char, Code.ofChar?_char]
  rfl

theorem step_of_other (hdigit : digit? c = none) (hmarker : ByteOrder.ofMarker? c = none)
    (hblank : isBlank c = false) (hcode : Code.ofChar? c = none) :
    s.step c = .error (.unknownCode c s.position) := by
  simp only [step, hdigit, hmarker, hblank, hcode]
  rfl

theorem pushDigit_eq_ok_iff {d : ℕ} : s.pushDigit d = .ok s' ↔
    s.digits.value * 10 + d ≤ repeatLimit ∧
      { s with
        position := s.position + 1
        pending := some ⟨s.digits.value * 10 + d, s.digits.start⟩ } = s' := by
  unfold pushDigit digits
  dsimp only
  split
  · next h => simp [h]
  · next h => simp [h]

theorem close_eq_ok_iff {code : Code} {g : Group} : s.close code = .ok (s', g) ↔
    s.count.value ≠ 0 ∧
      s.total + (Group.ofCode s.count.value code s.order).byteLength ≤ byteLimit ∧
      ⟨s.position + 1, s.order,
        s.total + (Group.ofCode s.count.value code s.order).byteLength, none⟩ = s' ∧
      Group.ofCode s.count.value code s.order = g := by
  unfold close count
  dsimp only
  split
  · next h => simp [h]
  · split
    · next hcount htotal => simp [hcount, htotal]
    · next hcount htotal => simp [htotal]

theorem step_eq_ok_iff : s.step c = .ok (s', g?) ↔ Step s c s' g? := by
  constructor
  · intro h
    cases hdigit : digit? c with
    | some d =>
      rw [step_of_digit hdigit, Except.map_eq_ok_iff] at h
      obtain ⟨t, hpush, heq⟩ := h
      obtain ⟨hlimit, rfl⟩ := pushDigit_eq_ok_iff.mp hpush
      cases heq
      exact .digit hdigit hlimit
    | none =>
      cases hmarker : ByteOrder.ofMarker? c with
      | some o =>
        rw [step_of_marker hmarker] at h
        cases h
        exact .marker hmarker
      | none =>
        by_cases hblank : isBlank c = true
        · rw [step_of_blank hblank] at h
          cases hpending : s.pending with
          | some count => simp [hpending] at h
          | none =>
            simp only [hpending, Option.isSome_none, Bool.false_eq_true, if_false] at h
            cases h
            rw [← hpending]
            exact .blank hblank hpending
        · cases hcode : Code.ofChar? c with
          | none =>
            rw [step_of_other hdigit hmarker (by simpa using hblank) hcode] at h
            cases h
          | some code =>
            obtain rfl := Code.ofChar?_eq_some_iff.mp hcode
            rw [step_char, Except.map_eq_ok_iff] at h
            obtain ⟨⟨t, g⟩, hclose, heq⟩ := h
            obtain ⟨hcount, htotal, rfl, rfl⟩ := close_eq_ok_iff.mp hclose
            cases heq
            exact .close code hcount htotal
  · intro h
    cases h with
    | digit hdigit hlimit =>
      rw [step_of_digit hdigit, Except.map_eq_ok_iff]
      exact ⟨_, pushDigit_eq_ok_iff.mpr ⟨hlimit, rfl⟩, rfl⟩
    | marker hmarker => rw [step_of_marker hmarker]
    | blank hblank hpending => rw [step_of_blank hblank, hpending]; rfl
    | close code hcount htotal =>
      rw [step_char, Except.map_eq_ok_iff]
      exact ⟨_, close_eq_ok_iff.mpr ⟨hcount, htotal, rfl, rfl⟩, rfl⟩

/-! ## Runs -/

theorem run_nil_eq_ok_iff {layout : Layout} :
    s.run [] = .ok layout ↔ s.pending = none ∧ layout = [] := by
  rw [run]
  split
  · next h => simp [h]
  · next h => simp [h, eq_comm]

theorem run_cons_eq_ok_iff {cs : List Char} {layout : Layout} :
    s.run (c :: cs) = .ok layout ↔
      ∃ s' g? rest, Step s c s' g? ∧ s'.run cs = .ok rest ∧ layout = g?.toList ++ rest := by
  rw [run, Except.bind_eq_ok_iff]
  constructor
  · rintro ⟨⟨s', g?⟩, hstep, hrun⟩
    obtain ⟨rest, hrest, hlayout⟩ := Except.bind_eq_ok_iff.mp hrun
    exact ⟨s', g?, rest, step_eq_ok_iff.mp hstep, hrest, (Except.ok.inj hlayout).symm⟩
  · rintro ⟨s', g?, rest, hstep, hrest, rfl⟩
    exact ⟨(s', g?), step_eq_ok_iff.mpr hstep, Except.bind_eq_ok_iff.mpr ⟨rest, hrest, rfl⟩⟩

end BinaryRecord.Scanner
