import BinaryRecord.Layout.Cache
import BinaryRecord.Proofs.Except

/-!
# Calls on a cache

What a cache keeps is changed by two things only: a text is looked up, or all is cleared. Every
operation on a format's text is a look-up to the cache. Here is told once what a look-up can do,
and a history is a list of calls.

## Main definitions

* `Cache.texts`: the keys of the formats kept.
* `Cache.Keyed`: every format is kept under its own text.
* `Cache.Lookup`: the outcomes of a look-up.
* `Cache.Call`, `Cache.after`: calls, and the cache after a history of them.
-/

namespace BinaryRecord.Cache
variable {c c' : Cache} {text : String} {shared : SharedFormat} {result : Except Error SharedFormat}

/-- The keys of the formats kept, in the order in which they came. -/
def texts (c : Cache) : List String := c.entries.map (·.1)

/-- Every format is kept under its own text. -/
def Keyed (c : Cache) : Prop := ∀ entry ∈ c.entries, entry.2.format.text = entry.1

theorem find?_eq_none_iff : c.find? text = none ↔ text ∉ c.texts := by
  simp only [find?, texts, List.lookup_eq_none_iff, List.mem_map, not_exists, not_and, bne_iff_ne]
  exact forall₂_congr fun _ _ => ne_comm

theorem mem_of_find?_eq_some (h : c.find? text = some shared) : (text, shared) ∈ c.entries := by
  obtain ⟨before, behind, hentries, -⟩ := List.lookup_eq_some_iff.mp h
  simp [hentries]

theorem Keyed.text_eq (hc : c.Keyed) (h : c.find? text = some shared) :
    shared.format.text = text := hc _ (mem_of_find?_eq_some h)

/-! ## Looking up a text -/

/-- What looking up a text can do: the format is kept already, or the text is refused, or the
format is read and kept, or it is read and there is no room for it. -/
inductive Lookup (c : Cache) (text : String) : Except Error SharedFormat → Cache → Prop where
  | kept {shared : SharedFormat} (hfind : c.find? text = some shared) :
      Lookup c text (.ok shared) c
  | refused {e : Error} (hfind : c.find? text = none) (hparse : Format.parse text = .error e) :
      Lookup c text (.error e) c
  | added {f : Format} (hfind : c.find? text = none) (hparse : Format.parse text = .ok f)
      (hroom : c.entries.length < c.capacity) :
      Lookup c text (.ok ⟨c.nextSerial, f⟩)
        ⟨c.capacity, c.entries ++ [(text, ⟨c.nextSerial, f⟩)], c.nextSerial + 1⟩
  | passed {f : Format} (hfind : c.find? text = none) (hparse : Format.parse text = .ok f)
      (hfull : c.capacity ≤ c.entries.length) :
      Lookup c text (.ok ⟨c.nextSerial, f⟩) ⟨c.capacity, c.entries, c.nextSerial + 1⟩

theorem lookup_get (c : Cache) (text : String) : Lookup c text (c.get text).1 (c.get text).2 := by
  unfold get
  cases hfind : c.find? text with
  | some shared => exact .kept hfind
  | none =>
    cases hparse : Format.parse text with
    | error e => exact .refused hfind hparse
    | ok f =>
      by_cases hroom : c.entries.length < c.capacity
      · simpa [enroll, hroom] using Lookup.added hfind hparse hroom
      · simpa [enroll, hroom] using Lookup.passed hfind hparse (Nat.not_lt.mp hroom)

/-- A look-up gives what reading the text gives. -/
theorem Lookup.map_format (hc : c.Keyed) (h : Lookup c text result c') :
    result.map (·.format) = Format.parse text := by
  cases h with
  | kept hfind => exact (Format.parse_eq_ok_iff_text_eq.mpr (hc.text_eq hfind)).symm
  | refused _ hparse => exact hparse.symm
  | added _ hparse _ => exact hparse.symm
  | passed _ hparse _ => exact hparse.symm

/-! ## Histories -/

/-- A call on a cache. -/
inductive Call where
  | get (text : String)
  | clear
  | byteLength (text : String)
  | pack (text : String) (mode : Mode) (vs : List Value)
  | packAt (text : String) (mode : Mode) (offset : ℕ) (vs : List Value) (buffer : Bytes)
  | unpack (text : String) (mode : Mode) (bs : Bytes)
  | unpackAt (text : String) (mode : Mode) (offset : ℕ) (bs : Bytes)

/-- The text that a call looks up; only a clearing call has none. -/
def Call.text? : Call → Option String
  | clear => none
  | get text => some text
  | byteLength text => some text
  | pack text _ _ => some text
  | packAt text _ _ _ _ => some text
  | unpack text _ _ => some text
  | unpackAt text _ _ _ => some text

/-- The cache after a call. -/
def perform (c : Cache) : Call → Cache
  | .get text => (c.get text).2
  | .clear => c.clear
  | .byteLength text => (c.byteLength text).2
  | .pack text mode vs => (c.pack text mode vs).2
  | .packAt text mode offset vs buffer => (c.packAt text mode offset vs buffer).2.2
  | .unpack text mode bs => (c.unpack text mode bs).2
  | .unpackAt text mode offset bs => (c.unpackAt text mode offset bs).2

/-- The cache after a history of calls. -/
def after (c : Cache) (calls : List Call) : Cache := calls.foldl perform c

@[simp] theorem after_nil (c : Cache) : c.after [] = c := rfl

@[simp] theorem after_cons (c : Cache) (call : Call) (calls : List Call) :
    c.after (call :: calls) = (c.perform call).after calls := rfl

theorem after_append (c : Cache) (calls calls' : List Call) :
    c.after (calls ++ calls') = (c.after calls).after calls' := List.foldl_append

theorem Call.text?_eq_none_iff {call : Call} : call.text? = none ↔ call = .clear := by
  cases call <;> simp [text?]

/-- To the cache a call is a look-up or a clear. -/
theorem perform_eq (c : Cache) (call : Call) :
    c.perform call = match call.text? with
      | some text => (c.get text).2
      | none => c.clear := by
  cases call with
  | packAt text mode offset vs buffer =>
    simp only [perform, packAt, Call.text?]
    split <;> next h => rw [h]
  | _ => rfl

/-- What look-ups keep is kept by a history of calls, if clearing keeps it too or never happens. -/
theorem after_induction {P : Cache → Prop} {calls : List Call} (hstart : P c)
    (hlookup : ∀ c text result c', P c → Lookup c text result c' → P c')
    (hclear : .clear ∈ calls → ∀ c, P c → P c.clear) : P (c.after calls) := by
  induction calls generalizing c with
  | nil => exact hstart
  | cons call calls ih =>
    refine ih ?_ fun hmem => hclear (List.mem_cons_of_mem _ hmem)
    rw [perform_eq]
    cases htext : call.text? with
    | none =>
      obtain rfl := Call.text?_eq_none_iff.mp htext
      exact hclear List.mem_cons_self c hstart
    | some text => exact hlookup c text _ _ hstart (lookup_get c text)

/-! ## Keys -/

theorem keyed_empty (capacity : ℕ) : (empty capacity).Keyed := by
  simp [Keyed, empty]

/-- A format that a look-up adds was read from the text that becomes its key. -/
theorem Keyed.lookup (hc : c.Keyed) (h : Lookup c text result c') : c'.Keyed := by
  cases h with
  | kept | refused | passed => exact hc
  | added _ hparse =>
    intro entry hentry
    rcases List.mem_append.mp hentry with hold | hnew
    · exact hc entry hold
    · rw [List.mem_singleton.mp hnew]
      exact Format.parse_eq_ok_iff_text_eq.mp hparse

theorem keyed_clear (c : Cache) : c.clear.Keyed := by
  simp [Keyed, clear]

/-- After any history every format is kept under its own text. -/
theorem keyed_after (capacity : ℕ) (history : List Call) :
    ((empty capacity).after history).Keyed :=
  after_induction (keyed_empty capacity) (fun _ _ _ _ hc h => hc.lookup h)
    fun _ _ _ => keyed_clear _

end BinaryRecord.Cache
