import BinaryRecord.Proofs.Cache.Transparent
import BinaryRecord.Proofs.Layout.Errors

/-!
# Which error comes first

The operations on a format's text look for the faults of the text before all others, and all of
them report the same fault. Behind it comes a lack of values or bytes, which is an error in strict
operation only, then the first value that cannot be stored, then a lack of room in a buffer.

## Main definitions

* `Cache.ReportsFormat`: what an operation reports of the format.
* `Cache.ReportsValues`: what packing reports of the values.
-/

namespace BinaryRecord.Cache

section Reports
variable {α : Type}

/-- The result of an operation on a text concerns the format exactly if the text cannot be read,
and then it is the error of reading it. -/
structure ReportsFormat (text : String) (result : Except Error α) : Prop where
  concernsFormat_iff : (∃ e, result = .error e ∧ e.concernsFormat = true) ↔
    ∃ e, Layout.parse text = .error e
  eq_error : ∀ e, Layout.parse text = .error e → result = .error e

/-- The result of packing values by a layout reports a shortage exactly if values are lacking in
strict operation, whatever else is wrong. Otherwise it reports the first value that cannot be
stored under the groups that the values cover, in both modes alike. -/
structure ReportsValues (layout : Layout) (mode : Mode) (vs : List Value)
    (result : Except Error α) : Prop where
  isShortage_iff : (∃ e, result = .error e ∧ e.isShortage = true) ↔
    mode = .strict ∧ vs.length < layout.valueCount
  eq_tooFewValues : mode = .strict → vs.length < layout.valueCount →
    result = .error (.tooFewValues layout.valueCount vs.length)
  firstRefused_iff : ¬ (mode = .strict ∧ vs.length < layout.valueCount) →
    ∃ k, IsGreatest {i | i ≤ layout.length ∧ Layout.valueCount (layout.take i) ≤ vs.length} k ∧
      ∀ e, (result = .error e ∧ e.topic = .value) ↔ Layout.FirstRefused (layout.take k) vs e

end Reports

variable {text : String} {layout : Layout} {mode : Mode} {vs : List Value}

/-- An operation that reads the text first and then finds nothing wrong with the format. -/
theorem ReportsFormat.bind {α : Type} {f : Layout → Except Error α}
    (h : ∀ layout e, f layout = .error e → e.topic ≠ .format) :
    ReportsFormat text ((Layout.parse text).bind f) := by
  cases hparse : Layout.parse text with
  | error e =>
    have htopic := Error.concernsFormat_iff.mpr (Layout.topic_of_parse hparse)
    exact ⟨by simp [hparse, Except.bind, htopic], by simp [hparse, Except.bind]⟩
  | ok layout =>
    refine ⟨?_, by simp [hparse]⟩
    simp only [hparse, reduceCtorEq, exists_false, iff_false, not_exists, not_and]
    intro e he
    rw [Error.concernsFormat_iff]
    exact h layout e he

/-! ## Packing -/

theorem reportsValues_pack (layout : Layout) (mode : Mode) (vs : List Value) :
    ReportsValues layout mode vs (layout.pack mode vs) := by
  by_cases hlack : mode = .strict ∧ vs.length < layout.valueCount
  · have hpack := Layout.pack_of_lacking hlack
    refine ⟨iff_of_true ⟨_, hpack, rfl⟩ hlack, fun _ _ => hpack, fun hnot => absurd hlack hnot⟩
  · have hrefused : ∀ e, layout.pack mode vs = .error e ↔
        Layout.FirstRefused (layout.take (layout.covered Group.valueCount vs.length)) vs e := by
      intro e
      rw [Layout.pack_eq_pack_loose hlack, Layout.pack_loose_eq_error_iff]
    refine ⟨iff_of_false ?_ hlack, fun hstrict hlt => absurd ⟨hstrict, hlt⟩ hlack, fun _ => ?_⟩
    · rintro ⟨e, he, hshortage⟩
      have htopic := ((hrefused e).mp he).topic_eq
      rw [Error.isShortage_iff, htopic] at hshortage
      cases hshortage
    · refine ⟨_, Layout.isGreatest_covered_values layout vs.length, fun e => ?_⟩
      rw [hrefused e]
      exact ⟨And.left, fun h => ⟨h, h.topic_eq⟩⟩

/-- What is reported of the values does not depend on what is reported of the room. -/
theorem ReportsValues.congr {α β : Type} {result : Except Error α} {result' : Except Error β}
    (h : ReportsValues layout mode vs result)
    (hiff : ∀ e, e.topic ≠ .room → (result' = .error e ↔ result = .error e)) :
    ReportsValues layout mode vs result' := by
  refine ⟨?_, ?_, ?_⟩
  · rw [← h.isShortage_iff]
    refine exists_congr fun e => and_congr_left fun hshortage => hiff e ?_
    simp [Error.isShortage_iff.mp hshortage]
  · intro hstrict hlack
    exact (hiff _ (by simp [Error.topic])).mpr (h.eq_tooFewValues hstrict hlack)
  · intro hlack
    obtain ⟨k, hk, hrefused⟩ := h.firstRefused_iff hlack
    refine ⟨k, hk, fun e => ?_⟩
    rw [← hrefused e]
    exact and_congr_left fun hvalue => hiff e (by simp [hvalue])

/-! ## All operations -/

/-- Any history on a new cache leaves every format under its own text. On such a cache the
operations report a fault of the format if and only if there is one, and all report the same.
Behind it packing reports a lack of values, in strict operation only, and then the first value
that cannot be stored. Packing into a buffer reports a lack of room only for what was packed.
Unpacking reports nothing but a lack of bytes, in strict operation only. -/
theorem error_precedence :
    (∀ capacity history, ((empty capacity).after history).Keyed) ∧
    ∀ c : Cache, c.Keyed → ∀ text mode offset vs bs buffer,
      (ReportsFormat text (c.byteLength text).1 ∧
        ReportsFormat text (c.pack text mode vs).1 ∧
        ReportsFormat text (c.packAt text mode offset vs buffer).1 ∧
        ReportsFormat text (c.unpack text mode bs).1 ∧
        ReportsFormat text (c.unpackAt text mode offset bs).1) ∧
      ∀ layout, Layout.parse text = .ok layout →
        (c.byteLength text).1 = .ok layout.byteLength ∧
        ReportsValues layout mode vs (c.pack text mode vs).1 ∧
        ReportsValues layout mode vs (c.packAt text mode offset vs buffer).1 ∧
        (∀ e, (c.pack text mode vs).1 = .error e → e.topic = .shortage ∨ e.topic = .value) ∧
        (∀ e, (c.packAt text mode offset vs buffer).1 = .error e ↔
          (c.pack text mode vs).1 = .error e ∨
            ∃ packed, (c.pack text mode vs).1 = .ok packed ∧
              buffer.length < offset + packed.length ∧
              e = .noRoom packed.length (buffer.length - offset)) ∧
        (∀ e, (c.unpack text mode bs).1 = .error e ↔
          mode = .strict ∧ bs.length < layout.byteLength ∧
            e = .tooFewBytes layout.byteLength bs.length) ∧
        (∀ e, (c.unpackAt text mode offset bs).1 = .error e ↔
          mode = .strict ∧ bs.length - offset < layout.byteLength ∧
            e = .tooFewBytes layout.byteLength (bs.length - offset)) := by
  refine ⟨keyed_after, fun c hkeyed text mode offset vs bs buffer => ?_⟩
  -- Each operation reads the text first and hands the layout on.
  have hc := hkeyed.transparent
  have hpackAt : (c.packAt text mode offset vs buffer).1 =
      (Layout.parse text).bind fun layout => (layout.packAt mode offset vs buffer).1 := by
    have h := congrArg Prod.fst (hc.packAt_eq text mode offset vs buffer)
    cases hparse : Layout.parse text <;> simpa [hparse, Except.bind] using h
  have hbyteLength : (c.byteLength text).1 =
      (Layout.parse text).bind fun layout => .ok layout.byteLength := by
    rw [hc.byteLength_eq]
    cases Layout.parse text <;> rfl
  rw [hbyteLength, hpackAt, hc.pack_eq, hc.unpack_eq, hc.unpackAt_eq]
  constructor
  · refine ⟨.bind (by simp), .bind ?_, .bind ?_, .bind ?_, .bind ?_⟩
    · intro layout e he
      rcases Layout.topic_of_pack he with htopic | htopic <;> simp [htopic]
    · exact fun _ _ => Layout.topic_of_packAt
    · exact fun _ _ => Layout.topic_of_unpack
    · exact fun _ _ => Layout.topic_of_unpack
  · intro layout hparse
    rw [hparse]
    have hvalues := reportsValues_pack layout mode vs
    refine ⟨rfl, hvalues, hvalues.congr fun _ => Layout.packAt_fst_eq_error_iff_of_topic,
      fun _ => Layout.topic_of_pack, fun _ => Layout.packAt_fst_eq_error_iff,
      fun _ => Layout.unpack_eq_error_iff, fun e => ?_⟩
    rw [← List.length_drop]
    exact Layout.unpack_eq_error_iff

/-- Without values packing by a text that is kept already reports their lack. -/
theorem error_precedence_kept :
    (((empty 1).after [.get "H", .clear, .get "<H", .get "q"]).pack "<H" .strict []).1 =
      .error (.tooFewValues 1 0) := by
  have h := error_precedence.2 _ (error_precedence.1 1 [.get "H", .clear, .get "<H", .get "q"])
    "<H" .strict 0 [] [] []
  have hparse : Layout.parse "<H" = .ok [.ofCode 1 .uint16 .little] := by decide
  exact (h.2 _ hparse).2.1.eq_tooFewValues rfl (by decide)

end BinaryRecord.Cache
