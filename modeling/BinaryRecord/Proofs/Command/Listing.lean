import BinaryRecord.Proofs.Command.Run
import Mathlib.Data.Nat.Notation

/-!
# What the listing of the groups says

The command that measures a format prints a line for each group if it is asked to. A reader of
the printed text finds these lines by the sign for a place at their head and parts them into
words. What is read in this way of a group is the offset at which it begins, its repeat count,
its letter, its element size and its byte order, whatever the widths of the columns.

## Main definitions

* `Calcsize.report`: all that the command prints if it lists the groups.
* `Calcsize.rows`: the lines of a text that tell a place, each by its words.
* `Calcsize.row`: what the line of a group says.
-/

namespace BinaryRecord.Calcsize

/-! ## Reading a text -/

/-- The words of a line, which blanks part. -/
def words (line : String) : List String :=
  ((line.toList.splitOn ' ').filter (· ≠ [])).map String.ofList

/-- The lines of a text that tell a place, each by its words. -/
def rows (text : String) : List (List String) :=
  ((text.toList.splitOn '\n').filter (·.head? = some '@')).map fun line => words (.ofList line)

theorem words_append_blank (s t : String) : words (s ++ " " ++ t) = words s ++ words t := by
  simp [words, List.splitOn, List.splitOnP_append_cons]

theorem words_of_word {s : String} (hne : s ≠ "") (hblank : ' ' ∉ s.toList) : words s = [s] := by
  have hsplit : s.toList.splitOn ' ' = [s.toList] := List.splitOnP_eq_singleton (by grind)
  simp [words, hsplit, hne]

/-- Blanks at the head of a line belong to no word. -/
theorem words_replicate_append (n : ℕ) (s : String) :
    words (.ofList (List.replicate n ' ') ++ s) = words s := by
  induction n with
  | zero => simp
  | succ n ih =>
    have hblank : String.ofList (List.replicate (n + 1) ' ') ++ s =
        "" ++ " " ++ (.ofList (List.replicate n ' ') ++ s) := by
      simp [← String.toList_inj, List.replicate_succ]
    rw [hblank, words_append_blank, ih]
    rfl

theorem words_alignRight (width : ℕ) (s : String) : words (Text.alignRight width s) = words s :=
  words_replicate_append _ s

theorem words_append_alignLeft (width : ℕ) (s t : String) :
    words (s ++ Text.alignLeft width t) = words (s ++ t) := by
  rw [Text.alignLeft, Text.blanks]
  cases width - t.length with
  | zero => simp
  | succ n =>
    have hblank : s ++ (t ++ .ofList (List.replicate (n + 1) ' ')) =
        s ++ t ++ " " ++ (.ofList (List.replicate n ' ') ++ "") := by
      simp [← String.toList_inj, List.replicate_succ]
    rw [hblank, words_append_blank, words_replicate_append]
    exact List.append_nil _

theorem rows_append_newline (s t : String) : rows (s ++ "\n" ++ t) = rows s ++ rows t := by
  simp [rows, List.splitOn, List.splitOnP_append_cons]

theorem rows_of_line {s : String} (hend : '\n' ∉ s.toList) :
    rows s = if s.toList.head? = some '@' then [words s] else [] := by
  have hsplit : s.toList.splitOn '\n' = [s.toList] := List.splitOnP_eq_singleton (by grind)
  by_cases hplace : s.toList.head? = some '@' <;> simp [rows, hsplit, hplace]

/-- A line without the sign for a place tells none. -/
theorem rows_of_notMem {s : String} (hend : '\n' ∉ s.toList) (hplace : '@' ∉ s.toList) :
    rows s = [] := by
  rw [rows_of_line hend, if_neg]
  exact fun h => hplace (List.mem_of_mem_head? h)

/-! ## The line of a group -/

/-- What the line of a group says: its place, the repeat count, the letter, the element size and
the byte order. -/
def row (offset : ℕ) (g : Group) : List String :=
  ["@" ++ toString offset, toString g.count, "x", s!"'{g.code.char}'", toString g.size, "bytes",
    "each", g.order.label]

theorem notMem_toDigits {c : Char} (hc : c.isDigit = false) (n : ℕ) : c ∉ Nat.toDigits 10 n := by
  intro h
  simp [Nat.isDigit_of_mem_toDigits (by decide) (by decide) h] at hc

theorem words_toString (n : ℕ) : words (toString n) = [toString n] :=
  words_of_word (by simp) (by simpa using notMem_toDigits (by decide) n)

theorem toString_string (s : String) : toString s = s := rfl

/-- The line of a group up to its end. -/
theorem exists_groupLine_eq (offset : ℕ) (g : Group) : ∃ line : String,
    groupLine offset g = line ++ "\n" ∧ '\n' ∉ line.toList ∧ line.toList.head? = some '@' ∧
      words line = row offset g := by
  refine ⟨"@" ++ Text.alignLeft 6 (toString offset) ++ " " ++
    (Text.alignRight 6 (toString g.count) ++ " " ++ ("x" ++ " " ++ (s!"'{g.code.char}'" ++ " " ++
      ("" ++ " " ++ (Text.alignRight 3 (toString g.size) ++ " " ++ ("bytes" ++ " " ++
        ("each" ++ " " ++ ("" ++ " " ++ g.order.label)))))))), ?_, ?_, ?_, ?_⟩
  · simp [groupLine, ← String.toList_inj, toString_string]
  · have hdigits : ∀ n, '\n' ∉ Nat.toDigits 10 n := notMem_toDigits (by decide)
    have hchar : '\n' ∉ (toString g.code.char).toList := by cases g.code <;> decide
    have hlabel : '\n' ∉ g.order.label.toList := by cases g.order <;> decide
    simp [Text.alignLeft, Text.alignRight, Text.blanks, toString_string, hdigits, hchar, hlabel]
  · simp
  · have hplace : words ("@" ++ toString offset) = ["@" ++ toString offset] :=
      words_of_word (by simp) (by simpa using notMem_toDigits (by decide) offset)
    have hchar : words s!"'{g.code.char}'" = [s!"'{g.code.char}'"] := by
      cases g.code <;> exact words_of_word (by decide) (by decide)
    have hlabel : words g.order.label = [g.order.label] := by
      cases g.order <;> exact words_of_word (by decide) (by decide)
    simp only [words_append_blank, words_append_alignLeft, words_alignRight, words_toString,
      hplace, hchar, hlabel]
    rfl

theorem rows_groupLine_append (offset : ℕ) (g : Group) (t : String) :
    rows (groupLine offset g ++ t) = row offset g :: rows t := by
  obtain ⟨line, hline, hend, hplace, hwords⟩ := exists_groupLine_eq offset g
  rw [hline, rows_append_newline, rows_of_line hend, if_pos hplace, hwords, List.singleton_append]

/-! ## All that is printed -/

/-- What the lines of the groups say, the first of which begins at `offset`. -/
def groupRows (offset : ℕ) : Layout → List (List String)
  | [] => []
  | g :: layout => row offset g :: groupRows (offset + g.byteLength) layout

theorem rows_groupLines_append (offset : ℕ) (layout : Layout) (t : String) :
    rows (String.join (groupLines offset layout) ++ t) = groupRows offset layout ++ rows t := by
  induction layout generalizing offset with
  | nil => simp [groupLines, groupRows]
  | cons g layout ih =>
    rw [groupLines, String.join_cons, String.append_assoc, rows_groupLine_append, ih, groupRows,
      List.cons_append]

theorem length_groupRows (offset : ℕ) (layout : Layout) :
    (groupRows offset layout).length = layout.length := by
  induction layout generalizing offset with
  | nil => rfl
  | cons g layout ih => rw [groupRows, List.length_cons, List.length_cons, ih]

/-- A group begins where those before it end. -/
theorem getElem?_groupRows {layout : Layout} {i : ℕ} {g : Group} (offset : ℕ)
    (hg : layout[i]? = some g) :
    (groupRows offset layout)[i]? = some (row (offset + Layout.byteLength (layout.take i)) g) := by
  induction layout generalizing offset i with
  | nil => simp at hg
  | cons g' layout ih =>
    cases i with
    | zero =>
      obtain rfl : g' = g := by simpa using hg
      simp [groupRows, Layout.byteLength]
    | succ i =>
      have hrest := ih (offset + g'.byteLength) (by simpa using hg)
      rw [groupRows, List.getElem?_cons_succ, hrest, List.take_succ_cons, Layout.byteLength,
        Nat.add_assoc]

/-- All that the command prints if it lists the groups. -/
def report (layout : Layout) : String := s!"{layout.byteLength}\n" ++ listing layout

/-- No other line tells a place. -/
theorem rows_report (layout : Layout) : rows (report layout) = groupRows 0 layout := by
  have hend : ∀ n, '\n' ∉ Nat.toDigits 10 n := notMem_toDigits (by decide)
  have hplace : ∀ n, '@' ∉ Nat.toDigits 10 n := notMem_toDigits (by decide)
  have hlines : report layout = toString layout.byteLength ++ "\n" ++ ("" ++ "\n" ++
      ("=== Fields ===" ++ "\n" ++ (String.join (groupLines 0 layout) ++
        (s!"Values consumed:  {layout.valueCount}" ++ "\n" ++ "")))) := by
    have hlisting : listing layout = "\n" ++ ("=== Fields ===" ++ "\n") ++
      String.join (groupLines 0 layout) ++ s!"Values consumed:  {layout.valueCount}\n" := rfl
    simp only [report, hlisting, toString_string, String.append_assoc, String.empty_append,
      String.append_empty]
  rw [hlines, rows_append_newline, rows_of_notMem (by simp [hend]) (by simp [hplace]),
    rows_append_newline, rows_of_notMem (by simp) (by simp), rows_append_newline,
    rows_of_notMem (by simp) (by simp), rows_groupLines_append, rows_append_newline,
    rows_of_notMem (by simp [hend, toString_string]) (by simp [hplace, toString_string])]
  exact List.append_nil _

example : rows (report [.ofCode 2 .uint16 .little, .ofCode 3 .pad .big]) =
    [["@0", "2", "x", "'H'", "2", "bytes", "each", "little"],
      ["@4", "3", "x", "'x'", "1", "bytes", "each", "big"]] := by
  rw [rows_report]
  decide

/-- The command on a text that can be read prints the report and cannot fail. -/
theorem exists_run_fields (f : Format) (w : Workspace) :
    ∃ w', w.run (.calcsize ⟨f.text, true⟩) = (.ok (), w') ∧
      w'.stdout = w.stdout ++ report f.layout := by
  change ∃ w', (run Workspace.host _).run w = _ ∧ _
  rw [run, Workspace.run_readFormat_bind, Format.parse_eq_ok_iff_text_eq.mpr rfl]
  exact ⟨_, rfl, String.append_assoc⟩

end BinaryRecord.Calcsize
