import Mathlib.Data.List.DropRight
import BinaryRecord.Proofs.Format.Grammar

/-!
# Faults of a format

What is wrong with a format is told from its text alone: whether a character faults hangs
on the count that is open before it and on the bytes that the groups before it cover. A
format that is refused is reported at the leftmost character that faults, or for the count
that is open at its end.

## Main definitions

* `Item.openCount`, `Item.countStart`: the count open behind a text, and its place.
* `Item.closedLength`: the bytes that the groups of a text cover.
* `Fault`: a character that faults behind a text, and the error that reports it.
* `FirstFault`: the error that reports a text.
-/

namespace BinaryRecord

namespace Item
variable {before text : List Char} {c : Char}

/-- The count that is open behind a text: the run of digits and markers at its end, from the
first digit on. -/
def openCount (before : List Char) : List Char :=
  (before.rtakeWhile fun c => c.isDigit || c ∈ markers).dropWhile fun c => !c.isDigit

/-- The position of the first digit of the count that is open behind a text, or that of the
next character if none is open. -/
def countStart (before : List Char) : ℕ := before.length - (openCount before).length

/-- The bytes of the group that a character behind a text closes. -/
def groupLength (before : List Char) (c : Char) : ℕ :=
  match Code.ofChar? c with
  | some code => number (openCount before) * code.width
  | none => 0

/-- The bytes of the groups that a text behind another closes. -/
def closedLength (before : List Char) : List Char → ℕ
  | [] => 0
  | c :: text => groupLength before c + closedLength (before ++ [c]) text

theorem number_eq_zero_iff {count : List Char} :
    number count = 0 ↔ count ≠ [] ∧ decimal count = 0 := by
  by_cases h : count = [] <;> simp [number, h]

/-! ## One more character -/

theorem openCount_append_digit (h : c.isDigit = true) :
    openCount (before ++ [c]) = openCount before ++ [c] := by
  rw [openCount, List.rtakeWhile_concat_pos _ _ _ (by simp [h]), List.dropWhile_append]
  split
  · next hnil => simp [openCount, List.isEmpty_iff.mp hnil, h]
  · rfl

theorem openCount_append_marker (h : c ∈ markers) :
    openCount (before ++ [c]) =
      if openCount before = [] then [] else openCount before ++ [c] := by
  have hdigit := isDigit_of_mem_markers h
  rw [openCount, List.rtakeWhile_concat_pos _ _ _ (by simp [h]), List.dropWhile_append]
  simp [openCount, hdigit]

theorem openCount_append_other (hdigit : c.isDigit = false) (hmarker : c ∉ markers) :
    openCount (before ++ [c]) = [] := by
  rw [openCount, List.rtakeWhile_concat_neg _ _ _ (by simp [hdigit, hmarker])]
  rfl

theorem closedLength_append (before text : List Char) (c : Char) :
    closedLength before (text ++ [c]) =
      closedLength before text + groupLength (before ++ text) c := by
  induction text generalizing before with
  | nil => simp [closedLength]
  | cons c text ih => simp [closedLength, ih, Nat.add_assoc]

theorem closedLength_append_char (before : List Char) (code : Code) :
    closedLength [] (before ++ [code.char]) =
      closedLength [] before + number (openCount before) * code.width := by
  rw [closedLength_append, List.nil_append, groupLength, Code.ofChar?_char]

theorem closedLength_append_other (before : List Char) (h : Code.ofChar? c = none) :
    closedLength [] (before ++ [c]) = closedLength [] before := by
  rw [closedLength_append, List.nil_append, groupLength, h, Nat.add_zero]

theorem countStart_append (h : openCount (before ++ [c]) = openCount before ++ [c]) :
    countStart (before ++ [c]) = countStart before := by
  rw [countStart, h, List.length_append, List.length_append, List.length_singleton,
    Nat.add_sub_add_right, countStart]

end Item

/-- A character that faults behind a text, and the error that reports it. -/
inductive Fault (before : List Char) : Char → Error → Prop where
  /-- A digit takes the open count above its limit. The count is named. -/
  | countTooLarge {c : Char} (hdigit : c.isDigit = true)
      (hlimit : repeatLimit < Item.decimal (Item.openCount before ++ [c])) :
      Fault before c (.tooLarge (Item.countStart before))
  /-- A blank stands behind an open count. The blank is named. -/
  | interruptedCount {c : Char} (hblank : c ∈ Item.blanks)
      (hopen : Item.openCount before ≠ []) :
      Fault before c (.interruptedCount before.length)
  /-- A character has no meaning, whatever stands before it. -/
  | unknownCode {c : Char} (hdigit : c.isDigit = false) (hmarker : c ∉ Item.markers)
      (hblank : c ∉ Item.blanks) (hcode : ∀ code : Code, code.char ≠ c) :
      Fault before c (.unknownCode c before.length)
  /-- A letter closes a count of zero. The count is named. -/
  | zeroRepeat (code : Code) (hopen : Item.openCount before ≠ [])
      (hzero : Item.decimal (Item.openCount before) = 0) :
      Fault before code.char (.zeroRepeat (Item.countStart before))
  /-- A letter closes a group with which the groups cover too many bytes. Its count is named,
  or the letter if there is none. -/
  | totalTooLarge (code : Code) (hpos : 1 ≤ Item.number (Item.openCount before))
      (htotal : byteLimit <
        Item.closedLength [] before + Item.number (Item.openCount before) * code.width) :
      Fault before code.char (.tooLarge (Item.countStart before))

/-- The character at a position of a text faults. -/
def FaultAt (text : List Char) (i : ℕ) (e : Error) : Prop :=
  ∃ c, text[i]? = some c ∧ Fault (text.take i) c e

/-- The error that reports a text: that of the leftmost character that faults, or at the end
of a text without such that of an open count. -/
def FirstFault (text : List Char) (e : Error) : Prop :=
  (∃ i, FaultAt text i e ∧ ∀ j < i, ∀ e', ¬ FaultAt text j e') ∨
    ((∀ i e', ¬ FaultAt text i e') ∧ Item.openCount text ≠ [] ∧
      e = .unfinishedGroup (Item.countStart text))

namespace Scanner
variable {s s' : Scanner} {before text : List Char} {c : Char} {e : Error} {g? : Option Group}

/-- The scanner stands behind a text that it has read without a fault. -/
structure StandsBehind (before : List Char) (s : Scanner) : Prop where
  position_eq : s.position = before.length
  total_eq : s.total = Item.closedLength [] before
  pending_eq : s.pending =
    if Item.openCount before = [] then none
    else some ⟨Item.decimal (Item.openCount before), Item.countStart before⟩

theorem standsBehind_start : start.StandsBehind [] := ⟨rfl, rfl, rfl⟩

namespace StandsBehind

theorem digits_eq (h : s.StandsBehind before) :
    s.digits = ⟨Item.decimal (Item.openCount before), Item.countStart before⟩ := by
  rw [digits, h.pending_eq]
  by_cases hopen : Item.openCount before = []
  · simp [hopen, h.position_eq, Item.countStart]
  · simp [hopen]

theorem count_eq (h : s.StandsBehind before) :
    s.count = ⟨Item.number (Item.openCount before), Item.countStart before⟩ := by
  rw [count, h.pending_eq]
  by_cases hopen : Item.openCount before = []
  · simp [hopen, h.position_eq, Item.countStart, Item.number]
  · simp [hopen, Item.number]

theorem isSome_pending_iff (h : s.StandsBehind before) :
    s.pending.isSome ↔ Item.openCount before ≠ [] := by
  rw [h.pending_eq]
  by_cases hopen : Item.openCount before = [] <;> simp [hopen]

/-- A step leaves the scanner behind one more character. -/
theorem step (h : s.StandsBehind before) (hstep : Step s c s' g?) :
    s'.StandsBehind (before ++ [c]) := by
  cases hstep with
  | @digit _ d hdigit hlimit =>
    have hchar := Item.isDigit_of_digit? hdigit
    have hopen : Item.openCount (before ++ [c]) = Item.openCount before ++ [c] :=
      Item.openCount_append_digit hchar
    constructor
    · simp [h.position_eq]
    · rw [Item.closedLength_append_other before (Item.ofChar?_of_isDigit hchar)]
      exact h.total_eq
    · simp [hopen, Item.countStart_append hopen, Item.decimal_append_digit hdigit, h.digits_eq]
  | @marker _ o hmarker =>
    have hmem := Item.mem_markers_iff.mpr ⟨o, hmarker⟩
    constructor
    · simp [h.position_eq]
    · rw [Item.closedLength_append_other before (Item.ofChar?_of_mem (.inl hmem))]
      exact h.total_eq
    · -- A marker behind the first digit of a count belongs to it and leaves its number alone.
      by_cases hnil : Item.openCount before = []
      · simp [Item.openCount_append_marker hmem, hnil, h.pending_eq]
      · have hopen : Item.openCount (before ++ [c]) = Item.openCount before ++ [c] := by
          rw [Item.openCount_append_marker hmem, if_neg hnil]
        have hdecimal : Item.decimal (Item.openCount before ++ [c]) =
            Item.decimal (Item.openCount before) :=
          Item.decimal_append_other (digit?_of_marker hmarker)
        simp [hopen, hnil, h.pending_eq, Item.countStart_append hopen, hdecimal]
  | blank hblank hpending =>
    have hmem := Item.mem_blanks_iff.mpr hblank
    have hdigit := Item.isDigit_eq_false_iff.mpr (digit?_of_blank hblank)
    have hmarker : c ∉ Item.markers := by
      rw [Item.mem_markers_iff, ofMarker?_of_blank hblank]
      simp
    constructor
    · simp [h.position_eq]
    · rw [Item.closedLength_append_other before (Item.ofChar?_of_mem (.inr hmem))]
      exact h.total_eq
    · simp [Item.openCount_append_other hdigit hmarker, hpending]
  | close code hcount htotal =>
    have hdigit := Item.isDigit_eq_false_iff.mpr (digit?_char code)
    have hmarker : code.char ∉ Item.markers := by
      rw [Item.mem_markers_iff, ofMarker?_char]
      simp
    constructor
    · simp [h.position_eq]
    · rw [Item.closedLength_append_char, ← h.total_eq, h.count_eq]
      rfl
    · simp [Item.openCount_append_other hdigit hmarker]

end StandsBehind

/-! ## Steps that fail -/

theorem pushDigit_eq_error_iff {d : ℕ} : s.pushDigit d = .error e ↔
    repeatLimit < s.digits.value * 10 + d ∧ e = .tooLarge s.digits.start := by
  unfold pushDigit digits
  dsimp only
  split
  · next h => simp [Nat.not_lt.mpr h]
  · next h => simp [Nat.not_le.mp h, eq_comm]

theorem close_eq_error_iff {code : Code} : s.close code = .error e ↔
    s.count.value = 0 ∧ e = .zeroRepeat s.count.start ∨
    s.count.value ≠ 0 ∧
      byteLimit < s.total + (Group.ofCode s.count.value code s.order).byteLength ∧
      e = .tooLarge s.count.start := by
  unfold close count
  dsimp only
  split
  · next h => simp [h, eq_comm]
  · split
    · next hcount htotal => simp [hcount, Nat.not_lt.mpr htotal]
    · next hcount htotal => simp [hcount, Nat.not_le.mp htotal, eq_comm]

/-- A step that fails does so at a character that faults behind the text read so far. -/
theorem fault_of_step (h : s.StandsBehind before) (hstep : s.step c = .error e) :
    Fault before c e := by
  cases hdigit : digit? c with
  | some d =>
    rw [step_of_digit hdigit, Except.map_eq_error_iff, pushDigit_eq_error_iff, h.digits_eq,
      ← Item.decimal_append_digit hdigit] at hstep
    obtain ⟨hlimit, rfl⟩ := hstep
    exact .countTooLarge (Item.isDigit_of_digit? hdigit) hlimit
  | none =>
    cases hmarker : ByteOrder.ofMarker? c with
    | some o =>
      rw [step_of_marker hmarker] at hstep
      cases hstep
    | none =>
      by_cases hblank : isBlank c = true
      · rw [step_of_blank hblank, h.position_eq] at hstep
        by_cases hpending : s.pending.isSome
        · rw [if_pos hpending] at hstep
          obtain rfl := Except.error.inj hstep
          exact .interruptedCount (Item.mem_blanks_iff.mpr hblank)
            (h.isSome_pending_iff.mp hpending)
        · simp [hpending] at hstep
      · cases hcode : Code.ofChar? c with
        | none =>
          rw [step_of_other hdigit hmarker (by simpa using hblank) hcode, h.position_eq] at hstep
          obtain rfl := Except.error.inj hstep
          refine .unknownCode (Item.isDigit_eq_false_iff.mpr hdigit) ?_ ?_ ?_
          · simp [Item.mem_markers_iff, hmarker]
          · simpa [Item.mem_blanks_iff] using hblank
          · intro code hchar
            rw [← hchar, Code.ofChar?_char] at hcode
            cases hcode
        | some code =>
          obtain rfl := Code.ofChar?_eq_some_iff.mp hcode
          rw [step_char, Except.map_eq_error_iff, close_eq_error_iff, h.count_eq,
            h.total_eq] at hstep
          rcases hstep with ⟨hzero, rfl⟩ | ⟨hpos, htotal, rfl⟩
          · obtain ⟨hopen, hzero⟩ := Item.number_eq_zero_iff.mp hzero
            exact .zeroRepeat code hopen hzero
          · exact .totalTooLarge code (Nat.one_le_iff_ne_zero.mpr hpos) htotal

/-- A step fails at every character that faults behind the text read so far. -/
theorem step_of_fault (h : s.StandsBehind before) (hfault : Fault before c e) :
    s.step c = .error e := by
  cases hfault with
  | countTooLarge hdigit hlimit =>
    have hvalue := Item.digit?_of_isDigit hdigit
    rw [step_of_digit hvalue, Except.map_eq_error_iff, pushDigit_eq_error_iff, h.digits_eq,
      ← Item.decimal_append_digit hvalue]
    exact ⟨hlimit, rfl⟩
  | interruptedCount hblank hopen =>
    rw [step_of_blank (Item.mem_blanks_iff.mp hblank), if_pos (h.isSome_pending_iff.mpr hopen),
      h.position_eq]
  | unknownCode hdigit hmarker hblank hcode =>
    have hmarker' : ByteOrder.ofMarker? c = none := by
      simpa [Item.mem_markers_iff, Option.eq_none_iff_forall_ne_some] using hmarker
    have hcode' : Code.ofChar? c = none := by
      rw [Option.eq_none_iff_forall_ne_some]
      intro code hsome
      exact hcode code (Code.ofChar?_eq_some_iff.mp hsome)
    rw [step_of_other (Item.isDigit_eq_false_iff.mp hdigit) hmarker'
      (by simpa [Item.mem_blanks_iff] using hblank) hcode', h.position_eq]
  | zeroRepeat code hopen hzero =>
    rw [step_char, Except.map_eq_error_iff, close_eq_error_iff, h.count_eq]
    exact .inl ⟨Item.number_eq_zero_iff.mpr ⟨hopen, hzero⟩, rfl⟩
  | totalTooLarge code hpos htotal =>
    rw [step_char, Except.map_eq_error_iff, close_eq_error_iff, h.count_eq, h.total_eq]
    exact .inr ⟨Nat.ne_of_gt hpos, htotal, rfl⟩

theorem step_eq_error_iff (h : s.StandsBehind before) :
    s.step c = .error e ↔ Fault before c e := ⟨fault_of_step h, step_of_fault h⟩

/-! ## Runs that fail -/

/-- The next character faults in the whole text exactly if it faults behind what is read. -/
theorem faultAt_length_iff : FaultAt (before ++ c :: text) before.length e ↔ Fault before c e := by
  simp [FaultAt]

/-- No character faults behind the end of a text. -/
theorem not_faultAt_of_length_le {i : ℕ} (h : text.length ≤ i) : ¬ FaultAt text i e := by
  rintro ⟨c, hc, -⟩
  rw [List.getElem?_eq_none h] at hc
  cases hc

theorem run_nil_eq_error_iff (h : s.StandsBehind before) :
    s.run [] = .error e ↔
      Item.openCount before ≠ [] ∧ e = .unfinishedGroup (Item.countStart before) := by
  rw [run, h.pending_eq]
  by_cases hopen : Item.openCount before = []
  · simp [hopen]
  · simp [hopen, eq_comm]

/-- If nothing faults in what is read, the run fails with the first fault of the whole text. -/
theorem run_eq_error_iff (h : s.StandsBehind before)
    (hbefore : ∀ j < before.length, ∀ e', ¬ FaultAt (before ++ text) j e') :
    s.run text = .error e ↔ FirstFault (before ++ text) e := by
  induction text generalizing before s with
  | nil =>
    rw [List.append_nil] at hbefore ⊢
    have hnone : ∀ i e', ¬ FaultAt before i e' := by
      intro i e'
      rcases Nat.lt_or_ge i before.length with hi | hi
      · exact hbefore i hi e'
      · exact not_faultAt_of_length_le hi
    simp [run_nil_eq_error_iff h, FirstFault, hnone]
  | cons c text ih =>
    cases hstep : s.step c with
    | error e₀ =>
      have hrun : s.run (c :: text) = .error e₀ := by rw [run, hstep]; rfl
      have hfault : FaultAt (before ++ c :: text) before.length e₀ :=
        faultAt_length_iff.mpr ((step_eq_error_iff h).mp hstep)
      rw [hrun]
      constructor
      · rintro ⟨rfl⟩
        exact .inl ⟨before.length, hfault, hbefore⟩
      · -- Before this character nothing faults, and behind it no fault is the first.
        rintro (⟨i, hi, hfirst⟩ | ⟨hnone, -⟩)
        · rcases Nat.lt_trichotomy i before.length with hlt | rfl | hgt
          · exact absurd hi (hbefore i hlt e)
          · have hstep' := (step_eq_error_iff h).mpr (faultAt_length_iff.mp hi)
            rw [hstep] at hstep'
            rw [Except.error.inj hstep']
          · exact absurd hfault (hfirst before.length hgt e₀)
        · exact absurd hfault (hnone before.length e₀)
    | ok p =>
      obtain ⟨s', g?⟩ := p
      have hstep' := step_eq_ok_iff.mp hstep
      have hassoc : before ++ c :: text = before ++ [c] ++ text := by simp
      rw [run_cons_of_step hstep', Except.map_eq_error_iff, hassoc]
      apply ih (h.step hstep')
      intro j hj e'
      rw [← hassoc]
      rcases Nat.lt_or_eq_of_le (Nat.lt_succ_iff.mp (by simpa using hj)) with hlt | rfl
      · exact hbefore j hlt e'
      · rw [faultAt_length_iff, ← step_eq_error_iff h, hstep]
        simp

end Scanner

/-- A format is refused exactly if it has a fault, and the error is that of its first. -/
theorem Layout.parse_eq_error_iff (text : String) (e : Error) :
    Layout.parse text = .error e ↔ FirstFault text.toList e := by
  have hstart : ∀ j < ([] : List Char).length, ∀ e', ¬ FaultAt ([] ++ text.toList) j e' := by simp
  exact Scanner.run_eq_error_iff Scanner.standsBehind_start hstart

example : Layout.parse "B 1<677>7217H 0é" = .error (.tooLarge 2) := by decide

end BinaryRecord
