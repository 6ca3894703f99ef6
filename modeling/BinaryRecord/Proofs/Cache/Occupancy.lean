import BinaryRecord.Proofs.Cache.Call
import Mathlib.Data.List.DropRight

/-!
# Which formats a cache keeps

A cache keeps the first texts that are asked for and can be read, each once, until there is no
more room. Texts that cannot be read take no place, a repeated request changes nothing, and a
clear starts all over.

## Main definitions

* `Cache.firstRequests`: the readable texts asked for since the last clear, by first request.
-/

namespace BinaryRecord.Cache
variable {c c' : Cache} {text : String} {result : Except Error SharedFormat}

/-! ## Requests in their order -/

/-- The readable texts that a history asks for since its last clear. -/
def requests (calls : List Call) : List String :=
  ((calls.rtakeWhile (·.text?.isSome)).filterMap Call.text?).filter
    fun text => (Layout.parse text).isOk

/-- The readable texts that a history asks for since its last clear, each where it is asked for
first. -/
def firstRequests (calls : List Call) : List String := (requests calls).eraseDups

theorem requests_clear (calls : List Call) : requests (calls ++ [.clear]) = [] := by
  rw [requests, List.rtakeWhile_concat_neg _ _ _ (by simp [Call.text?])]
  rfl

theorem requests_concat (calls : List Call) {call : Call} (htext : call.text? = some text) :
    requests (calls ++ [call]) =
      if (Layout.parse text).isOk then requests calls ++ [text] else requests calls := by
  have hkeep : call.text?.isSome = true := by simp [htext]
  rw [requests, List.rtakeWhile_concat_pos (·.text?.isSome) calls call hkeep,
    List.filterMap_append, List.filter_append, requests]
  by_cases hread : (Layout.parse text).isOk <;> simp [htext, hread]

theorem eraseDups_concat {α : Type} [BEq α] [LawfulBEq α] (as : List α) (a : α) :
    (as ++ [a]).eraseDups = if a ∈ as then as.eraseDups else as.eraseDups ++ [a] := by
  by_cases ha : a ∈ as <;> simp [List.eraseDups_append, List.removeAll, ha, List.eraseDups_cons]

/-- A further request counts if its text can be read and was not asked for before. -/
theorem firstRequests_concat (calls : List Call) {call : Call} (htext : call.text? = some text) :
    firstRequests (calls ++ [call]) =
      if (Layout.parse text).isOk ∧ text ∉ firstRequests calls then firstRequests calls ++ [text]
      else firstRequests calls := by
  simp only [firstRequests, requests_concat calls htext, List.mem_eraseDups]
  by_cases hread : (Layout.parse text).isOk
  · simp only [hread, if_true, true_and, eraseDups_concat, ite_not]
  · simp [hread]

/-- The front of a list that grows at its end grows with it until it is full. -/
theorem take_grow {α : Type} [DecidableEq α] (p : Prop) [Decidable p] (n : ℕ)
    (as : List α) (a : α) :
    (if p ∧ a ∉ as then as ++ [a] else as).take n =
      if p ∧ a ∉ as.take n ∧ (as.take n).length < n then as.take n ++ [a] else as.take n := by
  rw [apply_ite (List.take n)]
  by_cases hroom : as.length < n
  · have hlong : (as ++ [a]).length ≤ n := by simpa using Nat.succ_le_of_lt hroom
    simp only [List.take_of_length_le hlong, List.take_of_length_le hroom.le, hroom, and_true]
  · have hfull : n ≤ as.length := Nat.not_lt.mp hroom
    have hlength : ¬(as.take n).length < n := by simp [hfull]
    simp only [List.take_append_of_le_length hfull, hlength, ite_self, and_false, if_false]

/-! ## What is kept -/

@[simp] theorem texts_clear (c : Cache) : c.clear.texts = [] := rfl

@[simp] theorem length_texts (c : Cache) : c.texts.length = c.entries.length := List.length_map _

theorem isOk_parse_eq (text : String) : (Layout.parse text).isOk = (Format.parse text).isOk := by
  rw [← Format.map_layout_parse]
  cases Format.parse text <;> rfl

/-- A look-up keeps a readable text that is not kept yet, if there is room. -/
theorem Lookup.texts_eq (h : Lookup c text result c') :
    c'.texts =
      if (Layout.parse text).isOk ∧ text ∉ c.texts ∧ c.texts.length < c.capacity
      then c.texts ++ [text] else c.texts := by
  rw [isOk_parse_eq, length_texts]
  cases h with
  | kept hfind =>
    have hmem : text ∈ c.texts := by
      by_contra hmem
      simp [find?_eq_none_iff.mpr hmem] at hfind
    simp [hmem]
  | refused hfind hparse => simp [hparse, Except.isOk, Except.toBool]
  | added hfind hparse hroom =>
    rw [hparse, if_pos ⟨rfl, find?_eq_none_iff.mp hfind, hroom⟩]
    simp [texts]
  | passed hfind hparse hfull => simp [Nat.not_lt.mpr hfull, texts]

theorem capacity_after (c : Cache) (calls : List Call) : (c.after calls).capacity = c.capacity := by
  refine after_induction (P := fun c' => c'.capacity = c.capacity) rfl ?_ fun _ _ h => h
  intro c₁ text result c₂ h hlookup
  cases hlookup <;> exact h

theorem texts_after (capacity : ℕ) (calls : List Call) :
    ((empty capacity).after calls).texts = (firstRequests calls).take capacity := by
  induction calls using List.reverseRecOn with
  | nil => simp [firstRequests, requests, texts, empty]
  | append_singleton calls call ih =>
    rw [after_append, after_cons, after_nil, perform_eq]
    cases htext : call.text? with
    | none =>
      obtain rfl := Call.text?_eq_none_iff.mp htext
      simp [firstRequests, requests_clear]
    | some text =>
      have hcapacity := capacity_after (empty capacity) calls
      rw [(lookup_get _ text).texts_eq, ih, hcapacity, firstRequests_concat calls htext,
        take_grow]
      rfl

end BinaryRecord.Cache
