import BinaryRecord.Proofs.Format.Fault
import BinaryRecord.Proofs.Format.Spelling
import BinaryRecord.Proofs.Layout.Growth

/-!
# Formats one behind the other

Two formats written one behind the other describe the groups of both. The order that the first
ends with goes on in the second up to its own first marker; no count goes on, since a format that
is read ends without one. So the scan of the second runs behind the first as it runs alone, only
further on, and what is wrong with the second is reported further on by the length of the first.
Only the total length may become too large earlier.

## Main definitions

* `Layout.inherit`: the groups before the first marker take another order.
* `Error.shift`: an error as it is reported further on in a text.
* `Scanner.Ahead`: a scanner does what another does, further on.
-/

namespace BinaryRecord

/-- The groups with another order in the first `k` of them. -/
def Layout.inherit (o : ByteOrder) (k : ℕ) (layout : Layout) : Layout :=
  (layout.take k).map (fun g => { g with order := o }) ++ layout.drop k

/-- The error as it is reported if `n` more characters stand in front. -/
def Error.shift (n : ℕ) : Error → Error
  | .unknownCode c position => .unknownCode c (position + n)
  | .unfinishedGroup position => .unfinishedGroup (position + n)
  | .zeroRepeat position => .zeroRepeat (position + n)
  | .tooLarge position => .tooLarge (position + n)
  | .interruptedCount position => .interruptedCount (position + n)
  | e => e

/-! ## Groups of the second format -/

namespace Item
variable {before cs : List Char} {items items' : List Item}

/-- The number of type codes before the first marker of a text. -/
def leadingCodes (text : List Char) : ℕ :=
  ((text.takeWhile (· ∉ markers)).filterMap Code.ofChar?).length

theorem leadingCodes_append (h : ∀ c ∈ cs, c ∉ markers) (rest : List Char) :
    leadingCodes (cs ++ rest) = (cs.filterMap Code.ofChar?).length + leadingCodes rest := by
  rw [leadingCodes, List.takeWhile_append_of_pos (by simpa using h), List.filterMap_append,
    List.length_append, leadingCodes]

theorem leadingCodes_marker {c : Char} (h : c ∈ markers) (rest : List Char) :
    leadingCodes (c :: rest) = 0 := by
  simp [leadingCodes, h]

/-- No code stands before the first marker if that stands in a count. -/
theorem IsCount.leadingCodes_append (h : IsCount cs) (hmarked : ∃ c ∈ cs, c ∈ markers)
    (rest : List Char) : leadingCodes (cs ++ rest) = 0 := by
  have hstops : (cs.takeWhile (· ∉ markers)).length ≠ cs.length := by
    obtain ⟨c, hc, hmem⟩ := hmarked
    intro hall
    have hwhole := (List.takeWhile_prefix (· ∉ markers) (l := cs)).eq_of_length hall
    have hnot := List.mem_takeWhile_imp (hwhole ▸ hc)
    simp [hmem] at hnot
  have hnone : (cs.takeWhile (· ∉ markers)).filterMap Code.ofChar? = [] := by
    have hsub := (List.takeWhile_sublist (· ∉ markers) (l := cs)).filterMap Code.ofChar?
    rw [h.filterMap_ofChar?] at hsub
    exact List.sublist_nil.mp hsub
  rw [leadingCodes, List.takeWhile_append, if_neg hstops, hnone, List.length_nil]

/-- Behind a marker it does not matter what stands before it. -/
theorem orderBehind_eq_of_marked (hmarked : ∃ c ∈ cs, c ∈ markers) (before before' : List Char) :
    orderBehind (before ++ cs) = orderBehind (before' ++ cs) := by
  obtain ⟨c, hc, hmem⟩ := hmarked
  obtain ⟨o, hmarker⟩ := mem_markers_iff.mp hmem
  have hne : cs.filterMap ByteOrder.ofMarker? ≠ [] :=
    List.ne_nil_of_mem (List.mem_filterMap.mpr ⟨c, hc, hmarker⟩)
  rw [orderBehind_append, orderBehind_append, List.getLast?_eq_some_getLast hne]
  rfl

theorem orderBehind_append_of_unmarked (h : ∀ c ∈ cs, c ∉ markers) (before : List Char) :
    orderBehind (before ++ cs) = orderBehind before := by
  have hnone : cs.filterMap ByteOrder.ofMarker? = [] := by
    refine List.filterMap_eq_nil_iff.mpr ?_
    intro c hc
    simpa [mem_markers_iff, Option.eq_none_iff_forall_ne_some] using h c hc
  rw [orderBehind_append, hnone]
  rfl

theorem layout_nil_cons_blank {c : Char} (h : c ∈ blanks) (items : List Item) :
    layout [] (blank c :: items) = layout [] items :=
  layout_congr (orderBehind_append_other (Scanner.ofMarker?_of_blank (mem_blanks_iff.mp h))) items

/-- A row behind a text has its own groups, but those before its first marker are under the order
that the text ends with. -/
theorem layout_eq_inherit (hvalid : ∀ item ∈ items, item.Valid) (before : List Char) :
    layout before items =
      (layout [] items).inherit (orderBehind before) (leadingCodes (items.flatMap text)) := by
  induction items generalizing before with
  | nil => rfl
  | cons item items ih =>
    obtain ⟨hitem, hitems⟩ := List.forall_mem_cons.mp hvalid
    rw [List.flatMap_cons]
    cases item with
    | blank c =>
      have hmarker := Scanner.ofMarker?_of_blank (mem_blanks_iff.mp hitem)
      have hcodes : leadingCodes (text (blank c) ++ items.flatMap text) =
          leadingCodes (items.flatMap text) := by
        have hnot : ∀ c' ∈ text (blank c), c' ∉ markers := by
          simp [text, mem_markers_iff, hmarker]
        rw [leadingCodes_append hnot]
        simp [text, ofChar?_of_mem (.inr hitem)]
      rw [layout_nil_cons_blank hitem, hcodes, ← orderBehind_append_other hmarker]
      exact ih hitems (before ++ [c])
    | marker c =>
      obtain ⟨o, hmarker⟩ := mem_markers_iff.mp hitem
      have hsame : orderBehind (before ++ [c]) = orderBehind ([] ++ [c]) := by
        rw [orderBehind_append_marker hmarker, orderBehind_append_marker hmarker]
      rw [text, List.singleton_append, leadingCodes_marker hitem]
      exact layout_congr hsame items
    | group cs code =>
      have hcode : code.char ∉ markers := by
        simp [mem_markers_iff, Scanner.ofMarker?_char]
      by_cases hmarked : ∃ c ∈ cs, c ∈ markers
      · -- The marker in the count is the first one, and the groups behind it keep their orders.
        have hbehind : orderBehind (before ++ text (group cs code)) =
            orderBehind ([] ++ text (group cs code)) := by
          refine orderBehind_eq_of_marked ?_ before []
          obtain ⟨c, hc, hmem⟩ := hmarked
          exact ⟨c, List.mem_append_left _ hc, hmem⟩
        rw [text, List.append_assoc, hitem.1.leadingCodes_append hmarked]
        simp only [layout, layout_congr hbehind, orderBehind_eq_of_marked hmarked before []]
        rfl
      · have hcount : ∀ c ∈ cs, c ∉ markers := by simpa using hmarked
        have hgroup : ∀ c ∈ text (group cs code), c ∉ markers := by
          simpa [text, or_imp, forall_and] using ⟨hcount, hcode⟩
        have hletter : (text (group cs code)).filterMap Code.ofChar? = [code] := by
          simp [text, hitem.1.filterMap_ofChar?]
        have hbehind : orderBehind ([] ++ text (group cs code)) = orderBehind [] :=
          orderBehind_append_of_unmarked hgroup []
        rw [leadingCodes_append hgroup, hletter, List.length_singleton, Nat.add_comm 1, layout,
          ih hitems, layout, layout_congr hbehind, orderBehind_append_of_unmarked hgroup,
          orderBehind_append_of_unmarked hcount]
        rfl

theorem Spells.append {s s' : String} (h : Spells items s) (h' : Spells items' s') :
    Spells (items ++ items') (s ++ s') := by
  constructor
  · intro item hitem
    rcases List.mem_append.mp hitem with hitem | hitem
    · exact h.valid item hitem
    · exact h'.valid item hitem
  · rw [List.flatMap_append, h.flatMap_text, h'.flatMap_text, String.toList_append]

end Item

namespace Layout

theorem byteLength_inherit (o : ByteOrder) (k : ℕ) (layout : Layout) :
    (layout.inherit o k).byteLength = layout.byteLength := by
  have hmap : ∀ groups : Layout,
      byteLength (groups.map fun g => { g with order := o }) = groups.byteLength := by
    intro groups
    induction groups with
    | nil => rfl
    | cons g groups ih => rw [List.map_cons, byteLength, ih, byteLength]; rfl
  rw [inherit, byteLength_append, hmap, byteLength_take_add]

/-- The groups of two formats are read one behind the other, if together they are not too long. -/
theorem parse_append {s s' : String} {layout layout' : Layout} (h : parse s = .ok layout)
    (h' : parse s' = .ok layout')
    (hlength : layout.byteLength + layout'.byteLength ≤ byteLimit) :
    parse (s ++ s') = .ok (layout ++
      layout'.inherit (Item.orderBehind s.toList) (Item.leadingCodes s'.toList)) := by
  obtain ⟨items, hspells⟩ := Item.exists_spells_of_parse h
  obtain ⟨items', hspells'⟩ := Item.exists_spells_of_parse h'
  have hgroups : Item.layout [] (items ++ items') = layout ++
      layout'.inherit (Item.orderBehind s.toList) (Item.leadingCodes s'.toList) := by
    rw [Item.layout_append, hspells.layout_eq h, List.nil_append, hspells.flatMap_text,
      Item.layout_eq_inherit hspells'.valid, hspells'.layout_eq h', hspells'.flatMap_text]
  rw [← hgroups]
  refine (hspells.append hspells').parse_eq ?_
  rw [hgroups, byteLength_append, byteLength_inherit]
  exact hlength

end Layout

/-! ## The scan of the second format -/

namespace Scanner
variable {s s' t : Scanner} {c : Char} {g? : Option Group} {n bytes : ℕ}
  {before text : List Char} {e : Error}

theorem Step.position_eq (h : Step s c t g?) : t.position = s.position + 1 := by
  cases h <;> rfl

theorem run_cons_of_error (h : s.step c = .error e) (cs : List Char) :
    s.run (c :: cs) = .error e := by
  rw [run, h]
  rfl

/-- The scan of a text that is read goes on behind it without a pending count. -/
theorem exists_run_append {groups : Layout} (h : s.run text = .ok groups) :
    ∃ s' : Scanner, s'.position = s.position + text.length ∧
      s'.total = s.total + groups.byteLength ∧ s'.pending = none ∧
      ∀ rest, s.run (text ++ rest) = (s'.run rest).map (groups ++ ·) := by
  induction text generalizing s groups with
  | nil =>
    obtain ⟨hpending, rfl⟩ := run_nil_eq_ok_iff.mp h
    refine ⟨s, rfl, rfl, hpending, ?_⟩
    intro rest
    cases hrest : s.run rest <;> simp [hrest, Except.map]
  | cons c text ih =>
    obtain ⟨t, g?, behind, hstep, hrun, rfl⟩ := run_cons_eq_ok_iff.mp h
    obtain ⟨s', hposition, htotal, hpending, hrest⟩ := ih hrun
    refine ⟨s', ?_, ?_, hpending, ?_⟩
    · rw [hposition, hstep.position_eq, List.length_cons]
      omega
    · rw [htotal, hstep.total_eq, Layout.byteLength_append, Nat.add_assoc]
    · intro rest
      rw [List.cons_append, run_cons_of_step hstep, hrest]
      cases s'.run rest <;> simp [Except.map]

/-- The scanner does what another does with `n` characters and some bytes less behind it. -/
structure Ahead (n bytes : ℕ) (s s' : Scanner) : Prop where
  position_eq : s'.position = s.position + n
  total_eq : s'.total = s.total + bytes
  pending_eq : s'.pending = s.pending.map fun count => ⟨count.value, count.start + n⟩

namespace Ahead

theorem digits_eq (h : Ahead n bytes s s') :
    s'.digits = ⟨s.digits.value, s.digits.start + n⟩ := by
  rw [digits, digits, h.pending_eq, h.position_eq]
  cases s.pending <;> rfl

theorem count_eq (h : Ahead n bytes s s') : s'.count = ⟨s.count.value, s.count.start + n⟩ := by
  rw [count, count, h.pending_eq, h.position_eq]
  cases s.pending <;> rfl

/-- A step that fails does so further on. -/
theorem step_eq_error (h : Ahead n bytes s s') (hstep : s.step c = .error e) :
    s'.step c = .error (e.shift n) := by
  cases hdigit : digit? c with
  | some d =>
    rw [step_of_digit hdigit, Except.map_eq_error_iff, pushDigit_eq_error_iff] at hstep ⊢
    obtain ⟨hlimit, rfl⟩ := hstep
    rw [h.digits_eq]
    exact ⟨hlimit, rfl⟩
  | none =>
    cases hmarker : ByteOrder.ofMarker? c with
    | some o =>
      rw [step_of_marker hmarker] at hstep
      cases hstep
    | none =>
      by_cases hblank : isBlank c = true
      · rw [step_of_blank hblank] at hstep ⊢
        rw [h.pending_eq, Option.isSome_map, h.position_eq]
        by_cases hpending : s.pending.isSome
        · rw [if_pos hpending] at hstep ⊢
          obtain rfl := Except.error.inj hstep
          rfl
        · simp [hpending] at hstep
      · cases hcode : Code.ofChar? c with
        | none =>
          have hblank' : isBlank c = false := by simpa using hblank
          rw [step_of_other hdigit hmarker hblank' hcode] at hstep ⊢
          obtain rfl := Except.error.inj hstep
          rw [h.position_eq]
          rfl
        | some code =>
          obtain rfl := Code.ofChar?_eq_some_iff.mp hcode
          rw [step_char, Except.map_eq_error_iff, close_eq_error_iff] at hstep ⊢
          rw [h.count_eq, h.total_eq]
          rcases hstep with ⟨hzero, rfl⟩ | ⟨hpos, htotal, rfl⟩
          · exact .inl ⟨hzero, rfl⟩
          · have hlength (o : ByteOrder) : (Group.ofCode s.count.value code o).byteLength =
                (Group.ofCode s.count.value code s.order).byteLength := rfl
            refine .inr ⟨hpos, ?_, rfl⟩
            rw [hlength]
            omega

/-- A step that succeeds does so further on, unless the groups become too long there. -/
theorem step (h : Ahead n bytes s s') (hstep : Step s c t g?) :
    (∃ t' g'?, Step s' c t' g'? ∧ Ahead n bytes t t') ∨
      ∃ code : Code, c = code.char ∧ byteLimit < t.total + bytes ∧
        s'.step c = .error (.tooLarge (s.count.start + n)) := by
  cases hstep with
  | @digit _ d hdigit hlimit =>
    refine .inl ⟨_, none, .digit hdigit (by rw [h.digits_eq]; exact hlimit), ?_, h.total_eq, ?_⟩
    · simp [h.position_eq]
      omega
    · simp [h.digits_eq]
  | @marker _ o hmarker =>
    refine .inl ⟨_, none, .marker hmarker, ?_, h.total_eq, h.pending_eq⟩
    simp [h.position_eq]
    omega
  | blank hblank hpending =>
    refine .inl ⟨_, none, .blank hblank (by simp [h.pending_eq, hpending]), ?_, h.total_eq,
      h.pending_eq⟩
    simp [h.position_eq]
    omega
  | close code hcount htotal =>
    have hlength : (Group.ofCode s'.count.value code s'.order).byteLength =
        (Group.ofCode s.count.value code s.order).byteLength := by
      rw [h.count_eq]
      rfl
    have hcount' : s'.count.value ≠ 0 := by
      rw [h.count_eq]
      exact hcount
    rcases Nat.lt_or_ge byteLimit
      (s.total + (Group.ofCode s.count.value code s.order).byteLength + bytes) with hover | hfits
    · refine .inr ⟨code, rfl, hover, ?_⟩
      rw [step_char, Except.map_eq_error_iff, close_eq_error_iff, hlength, h.total_eq]
      refine .inr ⟨hcount', by omega, ?_⟩
      rw [h.count_eq]
    · refine .inl ⟨_, _, .close code hcount' ?_, ?_, ?_, rfl⟩
      · rw [hlength, h.total_eq]
        omega
      · simp [h.position_eq]
        omega
      · simp [hlength, h.total_eq]
        omega

/-- A run that fails does so further on, or the groups have become too long before that. -/
theorem run_eq_error (h : Ahead n bytes s s') (hs : s.StandsBehind before)
    (hrun : s.run text = .error e) :
    s'.run text = .error (e.shift n) ∨
      ∃ (i : ℕ) (code : Code), text[i]? = some code.char ∧
        byteLimit < bytes + Item.closedLength [] (before ++ text.take (i + 1)) ∧
        s'.run text = .error (.tooLarge (n + Item.countStart (before ++ text.take i))) := by
  induction text generalizing s s' before with
  | nil =>
    rw [run] at hrun
    cases hpending : s.pending with
    | none => simp [hpending] at hrun
    | some count =>
      simp only [hpending] at hrun
      obtain rfl := Except.error.inj hrun
      rw [run, h.pending_eq, hpending]
      exact .inl rfl
  | cons c text ih =>
    cases hstep : s.step c with
    | error e' =>
      rw [run_cons_of_error hstep] at hrun
      obtain rfl := Except.error.inj hrun
      exact .inl (run_cons_of_error (h.step_eq_error hstep) text)
    | ok p =>
      obtain ⟨t, g?⟩ := p
      have hstep' := step_eq_ok_iff.mp hstep
      have hbehind := hs.step hstep'
      rcases h.step hstep' with ⟨t', g'?, hahead, ht⟩ | ⟨code, rfl, hover, hfail⟩
      · rw [run_cons_of_step hstep', Except.map_eq_error_iff] at hrun
        rw [run_cons_of_step hahead]
        rcases ih ht hbehind hrun with hshift | ⟨i, code, hcode, hover, hfail⟩
        · exact .inl (Except.map_eq_error_iff.mpr hshift)
        · refine .inr ⟨i + 1, code, hcode, by simpa using hover, ?_⟩
          rw [Except.map_eq_error_iff, hfail]
          simp
      · refine .inr ⟨0, code, rfl, ?_, ?_⟩
        · rw [hbehind.total_eq] at hover
          simpa [Nat.add_comm] using hover
        · rw [run_cons_of_error hfail, hs.count_eq, List.take_zero, List.append_nil, Nat.add_comm]

end Ahead
end Scanner

namespace Layout
variable {layout layout' : Layout} {vs ws us : List Value} {bs cs packed : Bytes}

/-- What is wrong with a format is reported behind another one as it is alone, further on, unless
the groups of both become too long before it. -/
theorem parse_append_of_error {s s' : String} {e : Error} (h : parse s = .ok layout)
    (h' : parse s' = .error e) :
    parse (s ++ s') = .error (e.shift s.length) ∨
      ∃ (i : ℕ) (code : Code), s'.toList[i]? = some code.char ∧
        byteLimit < layout.byteLength + Item.closedLength [] (s'.toList.take (i + 1)) ∧
        parse (s ++ s') =
          .error (.tooLarge (s.length + Item.countStart (s'.toList.take i))) := by
  obtain ⟨t, hposition, htotal, hpending, hrest⟩ := Scanner.exists_run_append h
  have hahead : Scanner.Ahead s.length layout.byteLength .start t := by
    refine ⟨?_, ?_, hpending⟩
    · rw [hposition, String.length_toList]
    · rw [htotal]
  have hparse : parse (s ++ s') = (t.run s'.toList).map (layout ++ ·) := by
    rw [parse, String.toList_append, hrest]
  rw [hparse]
  rcases hahead.run_eq_error Scanner.standsBehind_start h' with
    hshift | ⟨i, code, hcode, hover, hfail⟩
  · exact .inl (Except.map_eq_error_iff.mpr hshift)
  · exact .inr ⟨i, code, hcode, hover, Except.map_eq_error_iff.mpr hfail⟩

/-! ## Packing and unpacking by both -/

/-- Values for two layouts are packed by both exactly if each packs its own. -/
theorem pack_strict_append_eq_ok_iff (hlen : vs.length = layout.valueCount) :
    pack (layout ++ layout') .strict (vs ++ ws) = .ok packed ↔
      ∃ front rest, layout.pack .strict vs = .ok front ∧ layout'.pack .strict ws = .ok rest ∧
        front ++ rest = packed := by
  have hcovered : layout.valueCount ≤ vs.length := hlen.ge
  rw [pack_strict_of_le hcovered]
  by_cases hws : layout'.valueCount ≤ ws.length
  · have hall : valueCount (layout ++ layout') ≤ (vs ++ ws).length := by
      rw [valueCount_append, List.length_append]
      omega
    have hboth := packScan_append (hcovered.trans (List.prefix_append vs ws).length_le) layout'
    rw [encodings_eq_of_isPrefix (List.prefix_append vs ws) hcovered, ← hlen, List.drop_left]
      at hboth
    rw [pack_strict_eq_pack_loose hall, pack_strict_eq_pack_loose hws, pack_loose, pack_loose,
      hboth]
    cases Except.all (layout.encodings vs) with
    | error e => simp [bind, Except.bind, Except.map]
    | ok units => cases layout'.packScan ws <;> simp [bind, Except.bind, Except.map]
  · have hlack : (vs ++ ws).length < valueCount (layout ++ layout') := by
      rw [valueCount_append, List.length_append]
      omega
    simp [pack_strict_of_lt hlack, pack_strict_of_lt (Nat.lt_of_not_le hws)]

/-- Bytes for two layouts are unpacked by both exactly if each unpacks its own. -/
theorem unpack_strict_append_eq_ok_iff (hlen : bs.length = layout.byteLength) :
    unpack (layout ++ layout') .strict (bs ++ cs) = .ok us ↔
      ∃ front rest, layout.unpack .strict bs = .ok front ∧ layout'.unpack .strict cs = .ok rest ∧
        front ++ rest = us := by
  have hcovered : layout.byteLength ≤ bs.length := hlen.ge
  have hboth := unpackScan_append (hcovered.trans (List.prefix_append bs cs).length_le) layout'
  rw [decodings_eq_of_isPrefix (List.prefix_append bs cs) hcovered, ← hlen, List.drop_left] at hboth
  rw [unpack_strict_eq_ite, unpack_strict_eq_ite, unpack_strict_eq_ite, if_pos hcovered,
    unpack_loose, unpack_loose, unpack_loose, hboth, unpackScan_of_le hcovered, byteLength_append,
    List.length_append]
  by_cases hcs : layout'.byteLength ≤ cs.length
  · rw [if_pos hcs, if_pos (by omega)]
    simp
  · rw [if_neg hcs, if_neg (by omega)]
    simp

end Layout

/-- A format behind another. If it is read, the groups of both are read from the two as one text,
those before its first marker under the order that the first ends with. If it is refused, so are
the two, for the same fault at a place further on, unless their groups become too long together
before it. By the groups of both each part of the values is packed, and each part of the bytes
unpacked, on its own. -/
theorem Format.parse_pack_unpack_append (f : Format) :
    (∀ (s : String) (groups : Layout), Layout.parse s = .ok groups →
      f.layout.byteLength + groups.byteLength ≤ byteLimit →
      Layout.parse (f.text ++ s) = .ok (f.layout ++
        groups.inherit (Item.orderBehind f.text.toList) (Item.leadingCodes s.toList))) ∧
    (∀ (s : String) (e : Error), Layout.parse s = .error e →
      Layout.parse (f.text ++ s) = .error (e.shift f.text.length) ∨
      ∃ (i : ℕ) (code : Code), s.toList[i]? = some code.char ∧
        byteLimit < f.layout.byteLength + Item.closedLength [] (s.toList.take (i + 1)) ∧
        Layout.parse (f.text ++ s) =
          .error (.tooLarge (f.text.length + Item.countStart (s.toList.take i)))) ∧
    ∀ groups : Layout,
      (∀ vs ws : List Value, vs.length = f.layout.valueCount → ∀ packed,
        (Layout.pack (f.layout ++ groups) .strict (vs ++ ws) = .ok packed ↔
          ∃ front rest, f.layout.pack .strict vs = .ok front ∧
            groups.pack .strict ws = .ok rest ∧ front ++ rest = packed)) ∧
      ∀ bs cs : Bytes, bs.length = f.layout.byteLength → ∀ us,
        (Layout.unpack (f.layout ++ groups) .strict (bs ++ cs) = .ok us ↔
          ∃ front rest, f.layout.unpack .strict bs = .ok front ∧
            groups.unpack .strict cs = .ok rest ∧ front ++ rest = us) := by
  refine ⟨?_, ?_, ?_⟩
  · intro s groups hparse hlength
    exact Layout.parse_append f.parse_text hparse hlength
  · intro s e hparse
    exact Layout.parse_append_of_error f.parse_text hparse
  · intro groups
    refine ⟨?_, ?_⟩
    · intro vs ws hlen packed
      exact Layout.pack_strict_append_eq_ok_iff hlen
    · intro bs cs hlen us
      exact Layout.unpack_strict_append_eq_ok_iff hlen

/-- The order of the first format reaches the second up to its marker, which stands in a count,
and a fault of the second is reported two characters further on. -/
theorem Format.parse_pack_unpack_append_order :
    ∃ f : Format, f.text = ">H" ∧
      Layout.parse "B2<H" = .ok [⟨1, .uint8, .little, 1⟩, ⟨2, .uint16, .little, 2⟩] ∧
      Layout.parse (">H" ++ "B2<H") =
        .ok [⟨1, .uint16, .big, 2⟩, ⟨1, .uint8, .big, 1⟩, ⟨2, .uint16, .little, 2⟩] ∧
      Layout.parse "B 1é" = .error (.unknownCode 'é' 3) ∧
      Layout.parse (">H" ++ "B 1é") = .error (.unknownCode 'é' 5) ∧
      Layout.pack [⟨1, .uint16, .big, 2⟩, ⟨2, .int8, .big, 1⟩] .strict
        [.uint 258, .int 3, .int (-1)] = .ok [1, 2, 3, 255] := by
  have hparse : Layout.parse ">H" = .ok [⟨1, .uint16, .big, 2⟩] := by decide
  have hsecond : Layout.parse "B2<H" =
      .ok [⟨1, .uint8, .little, 1⟩, ⟨2, .uint16, .little, 2⟩] := by decide
  have hfault : Layout.parse "B 1é" = .error (.unknownCode 'é' 3) := by decide
  have hgroups : [⟨1, .uint16, .big, 2⟩] ++ Layout.inherit (Item.orderBehind ">H".toList)
      (Item.leadingCodes "B2<H".toList) [⟨1, .uint8, .little, 1⟩, ⟨2, .uint16, .little, 2⟩] =
        [⟨1, .uint16, .big, 2⟩, ⟨1, .uint8, .big, 1⟩, ⟨2, .uint16, .little, 2⟩] := by decide
  have hfront : Layout.pack [⟨1, .uint16, .big, 2⟩] .strict [.uint 258] = .ok [1, 2] := by decide
  have hrest : Layout.pack [⟨2, .int8, .big, 1⟩] .strict [.int 3, .int (-1)] = .ok [3, 255] := by
    decide
  obtain ⟨hread, hrefused, hdrivers⟩ := parse_pack_unpack_append ⟨">H", _, hparse⟩
  have hboth := hread "B2<H" _ hsecond (Nat.le_of_ble_eq_true rfl)
  have hshifted : Layout.parse (">H" ++ "B 1é") =
      .error ((Error.unknownCode 'é' 3).shift ">H".length) := by
    refine (hrefused "B 1é" _ hfault).resolve_right ?_
    rintro ⟨i, code, hcode, hover, -⟩
    have hshort : ∀ j < "B 1é".toList.length,
        ¬ byteLimit < 2 + Item.closedLength [] ("B 1é".toList.take (j + 1)) := by decide
    exact hshort i (List.getElem?_eq_some_iff.mp hcode).1 hover
  have hplace : (Error.unknownCode 'é' 3).shift ">H".length = .unknownCode 'é' 5 := by decide
  have hpacked := ((hdrivers [⟨2, .int8, .big, 1⟩]).1 [.uint 258] [.int 3, .int (-1)] rfl
    [1, 2, 3, 255]).mpr ⟨[1, 2], [3, 255], hfront, hrest, rfl⟩
  exact ⟨⟨">H", _, hparse⟩, rfl, hsecond, hboth.trans (congrArg _ hgroups), hfault,
    hshifted.trans (congrArg _ hplace), hpacked⟩

end BinaryRecord
