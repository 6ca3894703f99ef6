import Mathlib.Logic.Relation
import BinaryRecord.Proofs.Format.Grammar

/-!
# Spellings of a layout

A layout is written with a marker, a count and a letter for each group, and is read back from
that. So the layouts that formats describe are exactly the well-formed ones. A layout has other
spellings, which differ in blanks, in the way a count is written, and in the markers.

## Main definitions

* `Layout.text`: the plain spelling of a layout.
* `Item.Spells`: a row of valid items has the characters of a text.
* `Item.Respells`: a change to a row of items that leaves its layout alone.
-/

namespace BinaryRecord

/-- A marker, the count in decimal, and the letter of the code. -/
def Group.text (g : Group) : String :=
  String.singleton g.order.marker ++ toString g.count ++ String.singleton g.code.char

/-- The groups, each with a marker and a count. -/
def Layout.text (layout : Layout) : String := String.join (layout.map Group.text)

namespace Item
variable {before before' cs cs' : List Char} {items items' : List Item} {c : Char} {code : Code}

/-! ## Orders -/

theorem ofMarker?_of_isDigit (h : c.isDigit = true) : ByteOrder.ofMarker? c = none := by
  cases hmarker : ByteOrder.ofMarker? c with
  | none => rfl
  | some o =>
    have hdigit := isDigit_of_mem_markers (mem_markers_iff.mpr ⟨o, hmarker⟩)
    rw [h] at hdigit
    cases hdigit

theorem orderBehind_append (before cs : List Char) :
    orderBehind (before ++ cs) =
      (cs.filterMap ByteOrder.ofMarker?).getLast?.getD (orderBehind before) := by
  rw [orderBehind, List.filterMap_append, List.getLast?_append, Option.getD_or]
  rfl

theorem orderBehind_congr (h : orderBehind before = orderBehind before') (cs : List Char) :
    orderBehind (before ++ cs) = orderBehind (before' ++ cs) := by
  rw [orderBehind_append, orderBehind_append, h]

/-- What is added to a text changes the order by its markers alone. -/
theorem orderBehind_append_congr
    (h : cs.filterMap ByteOrder.ofMarker? = cs'.filterMap ByteOrder.ofMarker?) :
    orderBehind (before ++ cs) = orderBehind (before ++ cs') := by
  rw [orderBehind_append, orderBehind_append, h]

/-! ## Groups of a row -/

/-- A text before a row matters only by the order behind it. -/
theorem layout_congr (h : orderBehind before = orderBehind before') (items : List Item) :
    layout before items = layout before' items := by
  induction items generalizing before before' with
  | nil => rfl
  | cons item items ih =>
    have hrest := ih (orderBehind_congr h item.text)
    cases item with
    | blank c => exact hrest
    | marker c => exact hrest
    | group cs code => rw [layout, layout, orderBehind_congr h, hrest]

theorem layout_append (before : List Char) (items items' : List Item) :
    layout before (items ++ items') =
      layout before items ++ layout (before ++ items.flatMap text) items' := by
  induction items generalizing before with
  | nil => simp [layout]
  | cons item items ih => cases item <;> simp [layout, ih, List.append_assoc]

/-- A count may be replaced by one with the same number and the same markers. -/
theorem layout_group_congr (hnumber : number cs = number cs')
    (hmarkers : cs.filterMap ByteOrder.ofMarker? = cs'.filterMap ByteOrder.ofMarker?) :
    layout before (group cs code :: items) = layout before (group cs' code :: items) := by
  have htext : orderBehind (before ++ text (group cs code)) =
      orderBehind (before ++ text (group cs' code)) :=
    orderBehind_append_congr (by simp [text, hmarkers])
  rw [layout, layout, hnumber, orderBehind_append_congr hmarkers, layout_congr htext]

/-- What the groups of a row are like but for their orders. -/
def counted : Item → Option (ℕ × Code × ℕ)
  | group count code => some (number count, code, code.width)
  | _ => none

theorem map_layout (before : List Char) (items : List Item) :
    (layout before items).map (fun g => (g.count, g.code, g.size)) = items.filterMap counted := by
  induction items generalizing before with
  | nil => rfl
  | cons item items ih => cases item <;> simp [layout, List.filterMap_cons, counted, ih]

/-- A row is determined in its groups by their numbers, letters and orders. -/
theorem layout_eq_of_orders (hcounted : items.filterMap counted = items'.filterMap counted)
    (horders : (layout before items).map (·.order) = (layout before' items').map (·.order)) :
    layout before items = layout before' items' := by
  rw [← map_layout before, ← map_layout before'] at hcounted
  have hpairs := congrArg₂ List.zip hcounted horders
  rw [List.zip_map', List.zip_map'] at hpairs
  refine List.map_injective_iff.mpr ?_ hpairs
  rintro ⟨⟩ ⟨⟩ hg
  simp_all

/-! ## Rows that differ in spelling -/

/-- The item without its markers. -/
def unmarked : Item → Option Item
  | blank c => some (blank c)
  | marker _ => none
  | group count code => some (group (count.filter (· ∉ markers)) code)

/-- The markers in a count are no part of its number. -/
theorem number_filter (h : IsCount cs) : number (cs.filter (· ∉ markers)) = number cs := by
  have hdigit : ∀ c : Char, c.isDigit = true → c ∉ markers := by
    intro c hc hmem
    rw [isDigit_of_mem_markers hmem] at hc
    cases hc
  cases cs with
  | nil => rfl
  | cons c cs =>
    have hfilter : ∀ a : Char, (a.isDigit && decide (a ∉ markers)) = a.isDigit := by
      intro a
      by_cases ha : a.isDigit = true
      · simp [ha, hdigit a ha]
      · simp [ha]
    have hcons : (c :: cs).filter (· ∉ markers) ≠ [] := by
      simp [hdigit c h.1]
    rw [number, number, if_neg hcons, if_neg (List.cons_ne_nil c cs), decimal, List.filter_filter]
    simp only [hfilter]
    rfl

theorem filterMap_counted_unmarked (h : ∀ item ∈ items, item.Valid) :
    (items.filterMap unmarked).filterMap counted = items.filterMap counted := by
  rw [List.filterMap_filterMap]
  refine List.filterMap_congr ?_
  intro item hitem
  cases item with
  | blank c => rfl
  | marker c => rfl
  | group cs code =>
    simp only [unmarked, Option.bind_some, counted, number_filter (h _ hitem).1]

/-- A change to a row of items that leaves its layout alone. -/
inductive Respells : List Item → List Item → Prop where
  /-- A blank is put between two items. -/
  | blank {before after : List Item} {c : Char} (hblank : c ∈ blanks) :
      Respells (before ++ after) (before ++ blank c :: after)
  /-- A zero is put in front of a count. -/
  | zero {before after : List Item} {cs : List Char} {code : Code} (hcs : cs ≠ [])
      (hcount : IsCount cs) :
      Respells (before ++ group cs code :: after) (before ++ group ('0' :: cs) code :: after)
  /-- The count one is written out. -/
  | one {before after : List Item} {code : Code} :
      Respells (before ++ group [] code :: after) (before ++ group ['1'] code :: after)
  /-- Markers are put in, taken out or moved, between items and within counts, so that each
  letter stands under the same order as before. -/
  | markers {items items' : List Item} (hvalid : ∀ item ∈ items, item.Valid)
      (hvalid' : ∀ item ∈ items', item.Valid)
      (hunmarked : items.filterMap unmarked = items'.filterMap unmarked)
      (horders : (layout [] items).map (·.order) = (layout [] items').map (·.order)) :
      Respells items items'

theorem number_zero (hcs : cs ≠ []) : number ('0' :: cs) = number cs := by
  rw [number, number, if_neg (List.cons_ne_nil _ cs), if_neg hcs, decimal,
    List.filter_cons_of_pos (by decide), Nat.ofDigitChars_cons]
  rfl

theorem IsCount.zero (h : IsCount cs) : IsCount ('0' :: cs) := by
  refine ⟨by decide, ?_⟩
  cases cs with
  | nil => simp
  | cons c cs => exact List.forall_mem_cons.mpr ⟨.inl h.1, h.2⟩

namespace Respells

theorem valid_iff (h : Respells items items') :
    (∀ item ∈ items, item.Valid) ↔ ∀ item ∈ items', item.Valid := by
  cases h with
  | blank hblank => simp [Valid, hblank, or_imp, forall_and]
  | zero hcs hcount =>
    simp [Valid, hcount, hcount.zero, number_zero hcs, or_imp, forall_and]
  | one =>
    have hnil : IsCount [] := trivial
    have hone : IsCount ['1'] := ⟨by decide, by simp⟩
    have hnumber : number ['1'] = number [] := by decide
    simp [Valid, hnil, hone, hnumber, or_imp, forall_and]
  | markers hvalid hvalid' => exact iff_of_true hvalid hvalid'

theorem layout_eq (h : Respells items items') : layout [] items = layout [] items' := by
  cases h with
  | @blank before after c hblank =>
    have hmarker := Scanner.ofMarker?_of_blank (mem_blanks_iff.mp hblank)
    have hskip (text : List Char) :
        layout text (Item.blank c :: after) = layout (text ++ [c]) after := rfl
    rw [layout_append, layout_append, hskip, layout_congr (orderBehind_append_other hmarker)]
  | zero hcs hcount =>
    rw [layout_append, layout_append, layout_group_congr (number_zero hcs).symm rfl]
  | one =>
    have hnumber : number [] = number ['1'] := by decide
    rw [layout_append, layout_append, layout_group_congr hnumber rfl]
  | markers hvalid hvalid' hunmarked horders =>
    have hcounted := congrArg (List.filterMap counted) hunmarked
    rw [filterMap_counted_unmarked hvalid, filterMap_counted_unmarked hvalid'] at hcounted
    exact layout_eq_of_orders hcounted horders

end Respells

/-- Any number of changes, made or undone, leave the layout alone. -/
theorem layout_eq_of_respelled (h : Relation.EqvGen Respells items items') :
    ((∀ item ∈ items, item.Valid) ↔ ∀ item ∈ items', item.Valid) ∧
      layout [] items = layout [] items' := by
  induction h with
  | rel items items' h => exact ⟨h.valid_iff, h.layout_eq⟩
  | refl items => exact ⟨Iff.rfl, rfl⟩
  | symm items items' _ ih => exact ⟨ih.1.symm, ih.2.symm⟩
  | trans items items' items'' _ _ ih ih' => exact ⟨ih.1.trans ih'.1, ih.2.trans ih'.2⟩

end Item

/-- A row of valid items that is read gives its own groups. -/
theorem Scanner.layout_eq_of_run {s : Scanner} {before : List Char} {items : List Item}
    {groups : Layout} (hs : s.HasRead before []) (hvalid : ∀ item ∈ items, item.Valid)
    (h : s.run (items.flatMap Item.text) = .ok groups) : Item.layout before items = groups := by
  induction items generalizing s before groups with
  | nil => exact (run_nil_eq_ok_iff.mp h).2.symm
  | cons item items ih =>
    obtain ⟨hitem, hitems⟩ := List.forall_mem_cons.mp hvalid
    rw [List.flatMap_cons] at h
    cases item with
    | blank c =>
      have hblank := Item.mem_blanks_iff.mp hitem
      rw [Item.text, List.singleton_append,
        run_cons_of_step_none (.blank hblank hs.pending_eq_none)] at h
      exact ih (hs.blank hblank (s.position + 1)) hitems h
    | marker c =>
      obtain ⟨o, hmarker⟩ := Item.mem_markers_iff.mp hitem
      rw [Item.text, List.singleton_append, run_cons_of_step_none (.marker hmarker)] at h
      exact ih (hs.marker_between hmarker (s.position + 1)) hitems h
    | group cs code =>
      obtain ⟨s', hs', -, hrun⟩ := exists_run_of_isCount hs hitem.1 hitem.2.2
      rw [Item.text, List.append_assoc, hrun, List.singleton_append, run_cons_eq_ok_iff] at h
      obtain ⟨s'', g?, rest, hstep, hrest, rfl⟩ := h
      rw [← step_eq_ok_iff, step_char, Except.map_eq_ok_iff] at hstep
      obtain ⟨⟨t, g⟩, hclose, heq⟩ := hstep
      obtain ⟨-, -, rfl, rfl⟩ := close_eq_ok_iff.mp hclose
      cases heq
      rw [Item.layout, ← hs'.ofCode_eq code]
      exact congrArg _ (ih (hs'.close code _ _) hitems hrest)

namespace Item
variable {groups : Layout} {items : List Item}

/-! ## Rows and texts -/

/-- A row of valid items has the characters of a text. -/
structure Spells (items : List Item) (text : String) : Prop where
  valid : ∀ item ∈ items, item.Valid
  flatMap_text : items.flatMap Item.text = text.toList

namespace Spells
variable {s : String}

theorem parse_eq (h : Spells items s)
    (hlen : Layout.byteLength (layout [] items) ≤ byteLimit) :
    Layout.parse s = .ok (layout [] items) := by
  rw [Layout.parse, ← h.flatMap_text]
  exact Scanner.run_items Scanner.hasRead_start h.valid (by simpa [Scanner.start] using hlen)

/-- A text that is read has the groups of its row. -/
theorem layout_eq (h : Spells items s) (hparse : Layout.parse s = .ok groups) :
    layout [] items = groups := by
  rw [Layout.parse, ← h.flatMap_text] at hparse
  exact Scanner.layout_eq_of_run Scanner.hasRead_start h.valid hparse

end Spells

theorem exists_spells_of_parse {s : String} (h : Layout.parse s = .ok groups) :
    ∃ items, Spells items s := by
  obtain ⟨items, hvalid, htext, -⟩ :=
    Scanner.exists_items_of_run Scanner.hasRead_start Scanner.bounded_start h
  exact ⟨items, hvalid, htext⟩

/-! ## The plain spelling -/

/-- The items of the plain spelling. -/
def plain (groups : Layout) : List Item :=
  groups.flatMap fun g => [marker g.order.marker, group (Nat.toDigits 10 g.count) g.code]

theorem filter_isDigit_toDigits (n : ℕ) :
    (Nat.toDigits 10 n).filter Char.isDigit = Nat.toDigits 10 n :=
  List.filter_eq_self.mpr fun _ => Nat.isDigit_of_mem_toDigits (by decide) (by decide)

theorem number_toDigits (n : ℕ) : number (Nat.toDigits 10 n) = n := by
  rw [number, if_neg Nat.toDigits_ne_nil, decimal, filter_isDigit_toDigits,
    Nat.ofDigitChars_toDigits (by decide) (by decide)]

theorem isCount_toDigits (n : ℕ) : IsCount (Nat.toDigits 10 n) := by
  have hdigits : ∀ c ∈ Nat.toDigits 10 n, c.isDigit = true :=
    fun _ => Nat.isDigit_of_mem_toDigits (by decide) (by decide)
  cases hn : Nat.toDigits 10 n with
  | nil => trivial
  | cons c cs =>
    rw [hn, List.forall_mem_cons] at hdigits
    exact ⟨hdigits.1, fun c hc => .inl (hdigits.2 c hc)⟩

theorem filterMap_ofMarker?_toDigits (n : ℕ) :
    (Nat.toDigits 10 n).filterMap ByteOrder.ofMarker? = [] :=
  List.filterMap_eq_nil_iff.mpr fun _ hc =>
    ofMarker?_of_isDigit (Nat.isDigit_of_mem_toDigits (by decide) (by decide) hc)

theorem spells_plain (h : ∀ g ∈ groups, g.WellFormed) :
    Spells (plain groups) groups.text := by
  constructor
  · intro item hitem
    obtain ⟨g, hg, hitem⟩ := List.mem_flatMap.mp hitem
    simp only [List.mem_cons, List.not_mem_nil, or_false] at hitem
    rcases hitem with rfl | rfl
    · exact mem_markers_iff.mpr ⟨g.order, ByteOrder.ofMarker?_marker g.order⟩
    · rw [Valid, number_toDigits]
      exact ⟨isCount_toDigits g.count, (h g hg).one_le_count, (h g hg).count_le⟩
  · simp [plain, Layout.text, Group.text, List.flatMap_assoc, List.flatMap_map, Item.text]

/-- A marker and a count in front of each letter give back the group. -/
theorem layout_plain (h : ∀ g ∈ groups, g.WellFormed) (before : List Char) :
    layout before (plain groups) = groups := by
  induction groups generalizing before with
  | nil => rfl
  | cons g groups ih =>
    obtain ⟨hg, hgroups⟩ := List.forall_mem_cons.mp h
    have horder : orderBehind (before ++ [g.order.marker] ++ Nat.toDigits 10 g.count) =
        g.order := by
      rw [orderBehind_append, filterMap_ofMarker?_toDigits]
      exact orderBehind_append_marker (ByteOrder.ofMarker?_marker g.order)
    rw [plain, List.flatMap_cons, ← plain]
    simp only [List.cons_append, List.nil_append, layout, number_toDigits, ih hgroups, text,
      horder, ← hg.size_eq]

end Item

namespace Layout

/-- The layouts that formats describe are exactly the well-formed ones. Each is read back from
its plain spelling, and from every text that differs from a format of it in blanks between
groups, in zeros in front of counts, in counts of one, or in markers that leave each letter its
order. -/
theorem parse_eq_of_respelled (layout : Layout) :
    (layout.WellFormed ↔ parse layout.text = .ok layout) ∧
    ∀ text : String, parse text = .ok layout →
      layout.WellFormed ∧ parse layout.text = .ok layout ∧
      (∃ items, Item.Spells items text) ∧
      ∀ (items items' : List Item) (text' : String), Item.Spells items text →
        Relation.EqvGen Item.Respells items items' →
        items'.flatMap Item.text = text'.toList → parse text' = .ok layout := by
  have hplain : layout.WellFormed → parse layout.text = .ok layout := by
    intro hwf
    have hlayout := Item.layout_plain hwf.groups []
    have hfits : Layout.byteLength _ ≤ _ := hlayout ▸ hwf.byteLength_le
    have hparse := (Item.spells_plain hwf.groups).parse_eq hfits
    rwa [hlayout] at hparse
  refine ⟨⟨hplain, wellFormed_of_parse⟩, ?_⟩
  intro text htext
  have hwf := wellFormed_of_parse htext
  refine ⟨hwf, hplain hwf, Item.exists_spells_of_parse htext, ?_⟩
  intro items items' text' hspells hrespelled htext'
  obtain ⟨hvalid, hlayout⟩ := Item.layout_eq_of_respelled hrespelled
  have hsame : Item.layout [] items = layout := hspells.layout_eq htext
  have hspells' : Item.Spells items' text' := ⟨hvalid.mp hspells.valid, htext'⟩
  rw [← hsame, hlayout]
  exact hspells'.parse_eq (by rw [← hlayout, hsame]; exact hwf.byteLength_le)

/-- Zeros, a count of one, a blank and markers that come to nothing change nothing. -/
theorem parse_eq_of_respelled_markers :
    Item.Spells [.marker '>', .group [] .uint16] ">H" ∧
      Relation.EqvGen Item.Respells [.marker '>', .group [] .uint16]
        [.marker '@', .blank '\t', .group ['0', '<', '1', '!'] .uint16] ∧
      parse "@\t0<1!H" = .ok [⟨1, .uint16, .big, 2⟩] := by
  have hspells : Item.Spells [.marker '>', .group [] .uint16] ">H" :=
    ⟨by decide, by decide⟩
  have hone : Item.Respells [.marker '>', .group [] .uint16] [.marker '>', .group ['1'] .uint16] :=
    @Item.Respells.one [.marker '>'] [] .uint16
  have hzero : Item.Respells [.marker '>', .group ['1'] .uint16]
      [.marker '>', .group ['0', '1'] .uint16] :=
    @Item.Respells.zero [.marker '>'] [] ['1'] .uint16 (by simp) (by decide)
  have hblank : Item.Respells [.marker '>', .group ['0', '1'] .uint16]
      [.marker '>', .blank '\t', .group ['0', '1'] .uint16] :=
    @Item.Respells.blank [.marker '>'] [.group ['0', '1'] .uint16] '\t' (by decide)
  have hmarkers : Item.Respells [.marker '>', .blank '\t', .group ['0', '1'] .uint16]
      [.marker '@', .blank '\t', .group ['0', '<', '1', '!'] .uint16] :=
    .markers (by decide) (by decide) rfl (by decide)
  have hrespelled := (((Relation.EqvGen.rel _ _ hone).trans _ _ _ (.rel _ _ hzero)).trans _ _ _
    (.rel _ _ hblank)).trans _ _ _ (.rel _ _ hmarkers)
  obtain ⟨-, -, -, hparse⟩ := (parse_eq_of_respelled [⟨1, .uint16, .big, 2⟩]).2 ">H" (by decide)
  exact ⟨hspells, hrespelled, hparse _ _ _ hspells hrespelled (by decide)⟩

end Layout
end BinaryRecord
