import BinaryRecord.Proofs.Format.Bounds
import BinaryRecord.Proofs.Format.Item

/-!
# The scan and the format language

The scan accepts exactly the rows of valid items whose groups cover no more bytes than
allowed, and gives the groups that the row describes. What the scan has read so far is
a row of whole items and the count of a group that is still open; every step keeps this.

## Main definitions

* `Scanner.HasRead`: whole items and an open count are behind the scanner.
-/

namespace BinaryRecord

namespace Scanner
variable {s s' : Scanner} {before cs : List Char} {c : Char}

/-- The scanner stands behind whole items with the text `before` and the open count `cs`. -/
structure HasRead (before cs : List Char) (s : Scanner) : Prop where
  order_eq : s.order = Item.orderBehind (before ++ cs)
  pending_eq : s.pending.map (·.value) = if cs = [] then none else some (Item.decimal cs)
  isCount : Item.IsCount cs

theorem hasRead_start : start.HasRead [] [] := ⟨rfl, rfl, trivial⟩

namespace HasRead

theorem pending_eq_none (h : s.HasRead before []) : s.pending = none := by
  simpa using h.pending_eq

theorem exists_pending (h : s.HasRead before cs) (hcs : cs ≠ []) :
    ∃ start, s.pending = some ⟨Item.decimal cs, start⟩ := by
  have hpending := h.pending_eq
  rw [if_neg hcs, Option.map_eq_some_iff] at hpending
  obtain ⟨count, hcount, hvalue⟩ := hpending
  exact ⟨count.start, by rw [hcount, ← hvalue]⟩

theorem eq_nil_of_pending (h : s.HasRead before cs) (hpending : s.pending = none) : cs = [] := by
  by_contra hcs
  obtain ⟨start, hsome⟩ := h.exists_pending hcs
  rw [hpending] at hsome
  cases hsome

theorem digits_value (h : s.HasRead before cs) : s.digits.value = Item.decimal cs := by
  by_cases hcs : cs = []
  · subst hcs
    simp [digits, h.pending_eq_none]
  · obtain ⟨start, hpending⟩ := h.exists_pending hcs
    simp [digits, hpending]

theorem count_value (h : s.HasRead before cs) : s.count.value = Item.number cs := by
  by_cases hcs : cs = []
  · subst hcs
    simp [count, Item.number, h.pending_eq_none]
  · obtain ⟨start, hpending⟩ := h.exists_pending hcs
    simp [count, Item.number, hpending, hcs]

/-! ## Steps -/

theorem digit (h : s.HasRead before cs) {d : ℕ} (hdigit : digit? c = some d)
    (position start : ℕ) :
    HasRead before (cs ++ [c])
      { s with position, pending := some ⟨s.digits.value * 10 + d, start⟩ } := by
  have hmarker : ByteOrder.ofMarker? c = none := by
    cases hmarker : ByteOrder.ofMarker? c with
    | none => rfl
    | some o => simp [digit?_of_marker hmarker] at hdigit
  constructor
  · rw [← List.append_assoc, Item.orderBehind_append_other hmarker]
    exact h.order_eq
  · simp [Item.decimal_append_digit hdigit, h.digits_value]
  · exact h.isCount.append (.inl (Item.isDigit_of_digit? hdigit))

theorem marker_within (h : s.HasRead before cs) (hcs : cs ≠ []) {o : ByteOrder}
    (hmarker : ByteOrder.ofMarker? c = some o) (position : ℕ) :
    HasRead before (cs ++ [c]) { s with position, order := o } := by
  have hdecimal : Item.decimal (cs ++ [c]) = Item.decimal cs :=
    Item.decimal_append_other (digit?_of_marker hmarker)
  constructor
  · rw [← List.append_assoc, Item.orderBehind_append_marker hmarker]
  · simpa [hdecimal, hcs] using h.pending_eq
  · exact h.isCount.append (.inr ⟨hcs, Item.mem_markers_iff.mpr ⟨o, hmarker⟩⟩)

theorem marker_between (h : s.HasRead before []) {o : ByteOrder}
    (hmarker : ByteOrder.ofMarker? c = some o) (position : ℕ) :
    HasRead (before ++ [c]) [] { s with position, order := o } := by
  constructor
  · rw [List.append_nil, Item.orderBehind_append_marker hmarker]
  · exact h.pending_eq
  · exact h.isCount

theorem blank (h : s.HasRead before []) (hblank : isBlank c = true) (position : ℕ) :
    HasRead (before ++ [c]) [] { s with position } := by
  constructor
  · rw [List.append_nil, Item.orderBehind_append_other (ofMarker?_of_blank hblank)]
    simpa using h.order_eq
  · exact h.pending_eq
  · exact h.isCount

theorem close (h : s.HasRead before cs) (code : Code) (position total : ℕ) :
    HasRead (before ++ (cs ++ [code.char])) [] ⟨position, s.order, total, none⟩ := by
  constructor
  · rw [List.append_nil, ← List.append_assoc, Item.orderBehind_append_other (ofMarker?_char code)]
    exact h.order_eq
  · rfl
  · trivial

/-- The group that the scan closes is the one that the item describes. -/
theorem ofCode_eq (h : s.HasRead before cs) (code : Code) :
    Group.ofCode s.count.value code s.order =
      ⟨Item.number cs, code, Item.orderBehind (before ++ cs), code.width⟩ := by
  rw [Group.ofCode, h.count_value, h.order_eq]

end HasRead

/-! ## What is accepted is a row of items -/

/-- A run that succeeds reads valid items, the first of which begins with the open count,
and gives their groups. -/
theorem exists_items_of_run {text : List Char} {layout : Layout} (hs : s.HasRead before cs)
    (hbounded : s.Bounded) (h : s.run text = .ok layout) :
    ∃ items : List Item, (∀ item ∈ items, item.Valid) ∧
      items.flatMap Item.text = cs ++ text ∧ Item.layout before items = layout := by
  induction text generalizing s before cs layout with
  | nil =>
    obtain ⟨hpending, rfl⟩ := run_nil_eq_ok_iff.mp h
    have hcs := hs.eq_nil_of_pending hpending
    exact ⟨[], by simp, by simp [hcs], rfl⟩
  | cons c text ih =>
    obtain ⟨s', g?, rest, hstep, hrun, rfl⟩ := run_cons_eq_ok_iff.mp h
    have hbounded' := hstep.bounded hbounded
    cases hstep with
    | digit hdigit hlimit =>
      obtain ⟨items, hvalid, htext, hlayout⟩ := ih (hs.digit hdigit _ _) hbounded' hrun
      exact ⟨items, hvalid, by simpa using htext, hlayout⟩
    | @marker _ o hmarker =>
      by_cases hcs : cs = []
      · subst hcs
        obtain ⟨items, hvalid, htext, hlayout⟩ := ih (hs.marker_between hmarker _) hbounded' hrun
        have hitem : Item.Valid (.marker c) := Item.mem_markers_iff.mpr ⟨o, hmarker⟩
        refine ⟨.marker c :: items, List.forall_mem_cons.mpr ⟨hitem, hvalid⟩, ?_, hlayout⟩
        simpa [Item.text] using htext
      · obtain ⟨items, hvalid, htext, hlayout⟩ := ih (hs.marker_within hcs hmarker _) hbounded' hrun
        exact ⟨items, hvalid, by simpa using htext, hlayout⟩
    | blank hblank hpending =>
      obtain rfl := hs.eq_nil_of_pending hpending
      obtain ⟨items, hvalid, htext, hlayout⟩ := ih (hs.blank hblank _) hbounded' hrun
      have hitem : Item.Valid (.blank c) := Item.mem_blanks_iff.mpr hblank
      refine ⟨.blank c :: items, List.forall_mem_cons.mpr ⟨hitem, hvalid⟩, ?_, hlayout⟩
      simpa [Item.text] using htext
    | close code hcount htotal =>
      obtain ⟨items, hvalid, htext, hlayout⟩ := ih (hs.close code _ _) hbounded' hrun
      have hitem : Item.Valid (.group cs code) := by
        rw [Item.Valid, ← hs.count_value]
        exact ⟨hs.isCount, Nat.one_le_iff_ne_zero.mpr hcount, hbounded.count_le⟩
      refine ⟨.group cs code :: items, List.forall_mem_cons.mpr ⟨hitem, hvalid⟩, ?_, ?_⟩
      · simpa [Item.text] using htext
      · rw [Item.layout, Item.text, hlayout, hs.ofCode_eq code]
        rfl

/-! ## A row of items is accepted -/

theorem run_cons_of_step {g? : Option Group} (h : Step s c s' g?) (cs : List Char) :
    s.run (c :: cs) = (s'.run cs).map (g?.toList ++ ·) := by
  rw [run, step_eq_ok_iff.mpr h]
  change (do let groups ← s'.run cs; return g?.toList ++ groups) = _
  cases s'.run cs <;> rfl

theorem run_cons_of_step_none (h : Step s c s' none) (cs : List Char) :
    s.run (c :: cs) = s'.run cs := by
  rw [run_cons_of_step h]
  cases s'.run cs <;> rfl

/-- A digit, or a marker once the count has begun, is taken into the count. -/
theorem exists_step_count (hs : s.HasRead before cs) (hc : c.isDigit ∨ cs ≠ [] ∧ c ∈ Item.markers)
    (hlimit : Item.decimal (cs ++ [c]) ≤ repeatLimit) :
    ∃ s', Step s c s' none ∧ HasRead before (cs ++ [c]) s' ∧ s'.total = s.total := by
  rcases hc with hc | ⟨hcs, hc⟩
  · have hdigit := Item.digit?_of_isDigit hc
    rw [Item.decimal_append_digit hdigit, ← hs.digits_value] at hlimit
    exact ⟨_, .digit hdigit hlimit, hs.digit hdigit _ _, rfl⟩
  · obtain ⟨o, hmarker⟩ := Item.mem_markers_iff.mp hc
    exact ⟨_, .marker hmarker, hs.marker_within hcs hmarker _, rfl⟩

/-- Digits and markers behind the start of a count are taken into it. -/
theorem exists_run_count {rest : List Char} (hs : s.HasRead before cs) (hcs : cs ≠ [])
    (hrest : ∀ c ∈ rest, c.isDigit ∨ c ∈ Item.markers)
    (hlimit : Item.decimal (cs ++ rest) ≤ repeatLimit) :
    ∃ s', HasRead before (cs ++ rest) s' ∧ s'.total = s.total ∧
      ∀ text, s.run (rest ++ text) = s'.run text := by
  induction rest generalizing s cs with
  | nil => exact ⟨s, by simpa using hs, rfl, fun _ => rfl⟩
  | cons c rest ih =>
    obtain ⟨hc, hrest⟩ := List.forall_mem_cons.mp hrest
    have hassoc : cs ++ c :: rest = cs ++ [c] ++ rest := by simp
    rw [hassoc] at hlimit ⊢
    -- The number never shrinks, so its limit holds at every character.
    have hnow := Nat.le_trans (Item.decimal_le_append (cs ++ [c]) rest) hlimit
    obtain ⟨t, hstep, ht, htotal⟩ := exists_step_count hs (hc.imp_right (And.intro hcs)) hnow
    obtain ⟨s', hs', htotal', hrun⟩ := ih ht (by simp) hrest hlimit
    refine ⟨s', hs', htotal'.trans htotal, ?_⟩
    intro text
    rw [List.cons_append, run_cons_of_step_none hstep, hrun]

/-- A count is taken in whole. -/
theorem exists_run_of_isCount (hs : s.HasRead before []) (hcount : Item.IsCount cs)
    (hlimit : Item.number cs ≤ repeatLimit) :
    ∃ s', HasRead before cs s' ∧ s'.total = s.total ∧ ∀ text, s.run (cs ++ text) = s'.run text := by
  cases cs with
  | nil => exact ⟨s, hs, rfl, fun _ => rfl⟩
  | cons c cs =>
    rw [Item.number, if_neg (by simp), ← List.singleton_append] at hlimit
    have hnow := Nat.le_trans (Item.decimal_le_append [c] cs) hlimit
    obtain ⟨t, hstep, ht, htotal⟩ := exists_step_count hs (.inl hcount.1) hnow
    obtain ⟨s', hs', htotal', hrun⟩ := exists_run_count ht (by simp) hcount.2 hlimit
    refine ⟨s', hs', htotal'.trans htotal, ?_⟩
    intro text
    rw [List.cons_append, run_cons_of_step_none hstep, hrun]

/-- Valid items whose groups are not too long are read to their groups. -/
theorem run_items {items : List Item} (hs : s.HasRead before [])
    (hvalid : ∀ item ∈ items, item.Valid)
    (htotal : s.total + Layout.byteLength (Item.layout before items) ≤ byteLimit) :
    s.run (items.flatMap Item.text) = .ok (Item.layout before items) := by
  induction items generalizing s before with
  | nil => exact run_nil_eq_ok_iff.mpr ⟨hs.pending_eq_none, rfl⟩
  | cons item items ih =>
    obtain ⟨hitem, hitems⟩ := List.forall_mem_cons.mp hvalid
    rw [List.flatMap_cons]
    cases item with
    | blank c =>
      have hblank := Item.mem_blanks_iff.mp hitem
      rw [Item.text, List.singleton_append,
        run_cons_of_step_none (.blank hblank hs.pending_eq_none),
        ih (hs.blank hblank (s.position + 1)) hitems htotal]
      rfl
    | marker c =>
      obtain ⟨o, hmarker⟩ := Item.mem_markers_iff.mp hitem
      rw [Item.text, List.singleton_append, run_cons_of_step_none (.marker hmarker),
        ih (hs.marker_between hmarker (s.position + 1)) hitems htotal]
      rfl
    | group cs code =>
      obtain ⟨hcount, hpos, hlimit⟩ := hitem
      obtain ⟨s', hs', htotal', hrun⟩ := exists_run_of_isCount hs hcount hlimit
      rw [Item.layout, Layout.byteLength, ← hs'.ofCode_eq code, ← Nat.add_assoc,
        ← htotal'] at htotal
      have hnonzero : s'.count.value ≠ 0 := by
        rw [hs'.count_value]
        exact Nat.ne_of_gt hpos
      have hfits := Nat.le_trans (Nat.le_add_right _ _) htotal
      rw [Item.text, List.append_assoc, hrun, List.singleton_append,
        run_cons_of_step (.close code hnonzero hfits), ih (hs'.close code _ _) hitems htotal,
        Item.layout, ← hs'.ofCode_eq code]
      rfl

end Scanner

namespace Item

/-! ## One group for each letter -/

theorem ofChar?_of_isDigit {c : Char} (h : c.isDigit = true) : Code.ofChar? c = none := by
  cases hcode : Code.ofChar? c with
  | none => rfl
  | some code =>
    have hchar := Scanner.digit?_char code
    rw [Code.ofChar?_eq_some_iff.mp hcode, digit?_of_isDigit h] at hchar
    cases hchar

theorem ofChar?_of_mem {c : Char} (h : c ∈ markers ∨ c ∈ blanks) : Code.ofChar? c = none := by
  simp only [markers, blanks, List.mem_cons, List.not_mem_nil, or_false] at h
  rcases h with (rfl | rfl | rfl | rfl | rfl) | (rfl | rfl | rfl | rfl | rfl) <;> decide

theorem IsCount.filterMap_ofChar? {cs : List Char} (h : IsCount cs) :
    cs.filterMap Code.ofChar? = [] := by
  apply List.filterMap_eq_nil_iff.mpr
  intro c hc
  cases cs with
  | nil => cases hc
  | cons d cs =>
    rcases List.mem_cons.mp hc with rfl | hc
    · exact ofChar?_of_isDigit h.1
    · rcases h.2 c hc with hc | hc
      · exact ofChar?_of_isDigit hc
      · exact ofChar?_of_mem (.inl hc)

end Item

example : Layout.parse ">1<2H x" = .ok [⟨12, .uint16, .little, 2⟩, ⟨1, .pad, .little, 1⟩] := by
  decide

end BinaryRecord
