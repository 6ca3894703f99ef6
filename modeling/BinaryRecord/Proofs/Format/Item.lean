import Mathlib.Data.List.Basic
import BinaryRecord.Proofs.Format.Step

/-!
# The format language

A format is a row of items: blanks, markers, and groups. The count of a group may hold
markers behind its first digit, which are passed over when the number is read. A group
is under the last marker before its letter, wherever that stands.

## Main definitions

* `Item`: an item of a format, with its text and what makes it valid.
* `Item.layout`: the groups that a row of items describes.
-/

namespace BinaryRecord

/-- An item of a format. -/
inductive Item where
  /-- A blank between groups. -/
  | blank (c : Char)
  /-- A marker between groups. -/
  | marker (c : Char)
  /-- The letter of a type code behind the characters of its count. -/
  | group (count : List Char) (code : Code)

namespace Item

/-- The characters that change the byte order. -/
def markers : List Char := ['@', '=', '<', '>', '!']

/-- The characters that may stand between groups: space, tab, line feed, form feed,
carriage return. -/
def blanks : List Char := [' ', '\t', '\n', '\x0c', '\r']

/-- The number that the digits among some characters are read as. -/
def decimal (cs : List Char) : ℕ := Nat.ofDigitChars 10 (cs.filter Char.isDigit) 0

/-- The number of a count; no count means one. -/
def number (count : List Char) : ℕ := if count = [] then 1 else decimal count

/-- A count starts with a digit and goes on with digits and markers. -/
def IsCount : List Char → Prop
  | [] => True
  | c :: cs => c.isDigit ∧ ∀ c ∈ cs, c.isDigit ∨ c ∈ markers

/-- An item that may stand in a format. -/
def Valid : Item → Prop
  | blank c => c ∈ blanks
  | marker c => c ∈ markers
  | group count _ => IsCount count ∧ 1 ≤ number count ∧ number count ≤ repeatLimit

instance : DecidablePred IsCount
  | [] => isTrue trivial
  -- Given by name, so that the characters of the list are tried and not all there are.
  | c :: cs => @instDecidableAnd (c.isDigit = true) _ inferInstance (List.decidableBAll _ cs)

instance : DecidablePred Valid
  | blank c => inferInstanceAs (Decidable (c ∈ blanks))
  | marker c => inferInstanceAs (Decidable (c ∈ markers))
  | group count _ =>
    inferInstanceAs (Decidable (IsCount count ∧ 1 ≤ number count ∧ number count ≤ repeatLimit))

/-- The characters of an item. -/
def text : Item → List Char
  | blank c => [c]
  | marker c => [c]
  | group count code => count ++ [code.char]

/-- The byte order in force behind a text: that of its last marker, or the native one. -/
def orderBehind (text : List Char) : ByteOrder :=
  ((text.filterMap ByteOrder.ofMarker?).getLast?).getD .native

/-- The groups of a row of items that stands behind a text. -/
def layout (before : List Char) : List Item → Layout
  | [] => []
  | group count code :: items =>
    ⟨number count, code, orderBehind (before ++ count), code.width⟩ ::
      layout (before ++ text (group count code)) items
  | item :: items => layout (before ++ item.text) items

/-! ## Classes of characters -/

theorem digit?_eq (c : Char) :
    Scanner.digit? c = if c.isDigit then some (c.toNat - '0'.toNat) else none := by
  have hiff : ('0' ≤ c ∧ c ≤ '9') ↔ c.isDigit = true := by
    simp [Char.isDigit, Char.le_def]
  rw [Scanner.digit?]
  simp only [hiff]

theorem digit?_of_isDigit {c : Char} (h : c.isDigit = true) :
    Scanner.digit? c = some (c.toNat - '0'.toNat) := by
  rw [digit?_eq, if_pos h]

theorem isDigit_of_digit? {c : Char} {d : ℕ} (h : Scanner.digit? c = some d) :
    c.isDigit = true := by
  by_contra hnot
  rw [digit?_eq, if_neg hnot] at h
  cases h

theorem mem_markers_iff {c : Char} : c ∈ markers ↔ ∃ o, ByteOrder.ofMarker? c = some o := by
  simp only [markers, List.mem_cons, List.not_mem_nil, or_false]
  constructor
  · rintro (rfl | rfl | rfl | rfl | rfl) <;> exact ⟨_, rfl⟩
  · rintro ⟨o, ho⟩
    exact Scanner.marker_cases ho

theorem mem_blanks_iff {c : Char} : c ∈ blanks ↔ Scanner.isBlank c = true := by
  simp [blanks, Scanner.isBlank]

theorem isDigit_eq_false_iff {c : Char} : c.isDigit = false ↔ Scanner.digit? c = none := by
  rw [digit?_eq]
  cases c.isDigit <;> simp

theorem isDigit_of_mem_markers {c : Char} (h : c ∈ markers) : c.isDigit = false := by
  obtain ⟨o, hmarker⟩ := mem_markers_iff.mp h
  exact isDigit_eq_false_iff.mpr (Scanner.digit?_of_marker hmarker)

/-! ## Counts that grow -/

variable {cs : List Char} {c : Char}

@[simp] theorem decimal_nil : decimal [] = 0 := rfl

theorem decimal_append_digit {d : ℕ} (h : Scanner.digit? c = some d) :
    decimal (cs ++ [c]) = decimal cs * 10 + d := by
  have hdigit := isDigit_of_digit? h
  rw [digit?_of_isDigit hdigit, Option.some.injEq] at h
  rw [decimal, List.filter_append, Nat.ofDigitChars_append, ← decimal]
  simp [hdigit, Nat.ofDigitChars_cons, ← h, Nat.mul_comm]

theorem decimal_append_other (h : Scanner.digit? c = none) : decimal (cs ++ [c]) = decimal cs := by
  have hdigit : ¬ c.isDigit = true := by
    intro hdigit
    rw [digit?_of_isDigit hdigit] at h
    cases h
  simp [decimal, List.filter_append, hdigit]

/-- Taking in further characters does not make the number smaller. -/
theorem decimal_le_append (cs cs' : List Char) : decimal cs ≤ decimal (cs ++ cs') := by
  induction cs' generalizing cs with
  | nil => simp
  | cons c cs' ih =>
    have hgrow : decimal cs ≤ decimal (cs ++ [c]) := by
      cases hdigit : Scanner.digit? c with
      | none => exact Nat.le_of_eq (decimal_append_other hdigit).symm
      | some d =>
        rw [decimal_append_digit hdigit]
        omega
    calc decimal cs ≤ decimal (cs ++ [c]) := hgrow
      _ ≤ decimal (cs ++ [c] ++ cs') := ih (cs ++ [c])
      _ = decimal (cs ++ c :: cs') := by rw [List.append_assoc, List.singleton_append]

/-- A count goes on with a digit or, once it has begun, with a marker. -/
theorem IsCount.append (h : IsCount cs) (hc : c.isDigit ∨ cs ≠ [] ∧ c ∈ markers) :
    IsCount (cs ++ [c]) := by
  cases cs with
  | nil => exact ⟨hc.resolve_right (by simp), by simp⟩
  | cons d cs =>
    refine ⟨h.1, ?_⟩
    intro c' hmem
    rcases List.mem_append.mp hmem with hmem | hmem
    · exact h.2 c' hmem
    · rw [List.mem_singleton.mp hmem]
      exact hc.imp_right And.right

/-! ## Orders -/

theorem orderBehind_append_marker {o : ByteOrder} (h : ByteOrder.ofMarker? c = some o) :
    orderBehind (cs ++ [c]) = o := by
  simp [orderBehind, h]

theorem orderBehind_append_other (h : ByteOrder.ofMarker? c = none) :
    orderBehind (cs ++ [c]) = orderBehind cs := by
  simp [orderBehind, h]

end Item
end BinaryRecord
