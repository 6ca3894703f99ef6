import BinaryRecord.Proofs.Cache.Occupancy

/-!
# Which answers are the same shared format

Every reading has a number of its own, so a format that was read earlier is among the formats
kept later only if it was kept at once and nothing was cleared since. Two look-ups therefore
share a format exactly if they ask for one readable text that has stayed in the cache.

## Main definitions

* `Cache.Numbered`: no two formats kept have one number, and the next number is free.
* `Cache.Shares`: two look-ups, with calls between them, give the same shared format.
-/

namespace BinaryRecord.Cache
variable {c c' : Cache} {text : String} {shared : SharedFormat} {result : Except Error SharedFormat}
  {entry : String × SharedFormat} {calls : List Call}

/-! ## Numbers of readings -/

/-- No two formats kept have one number, and the next number is free. -/
structure Numbered (c : Cache) : Prop where
  lt_nextSerial : ∀ s ∈ c.entries, s.2.serial < c.nextSerial
  eq_of_serial_eq : ∀ s ∈ c.entries, ∀ s' ∈ c.entries, s.2.serial = s'.2.serial → s = s'

theorem numbered_empty (capacity : ℕ) : (empty capacity).Numbered :=
  ⟨by simp [empty], by simp [empty]⟩

theorem Numbered.lookup (hc : c.Numbered) (h : Lookup c text result c') : c'.Numbered := by
  cases h with
  | kept | refused => exact hc
  | passed => exact ⟨fun s hs => (hc.lt_nextSerial s hs).trans (Nat.lt_succ_self _), hc.2⟩
  | added =>
    refine ⟨?_, ?_⟩
    · intro s hs
      rcases List.mem_append.mp hs with hs | hs
      · exact (hc.lt_nextSerial s hs).trans (Nat.lt_succ_self _)
      · rw [List.mem_singleton.mp hs]
        exact Nat.lt_succ_self _
    · -- An old entry and the new one cannot agree: the new number was free.
      intro s hs s' hs' heq
      have hold : ∀ t ∈ c.entries, t.2.serial ≠ c.nextSerial := fun t ht =>
        (hc.lt_nextSerial t ht).ne
      rcases List.mem_append.mp hs with hs | hs <;> rcases List.mem_append.mp hs' with hs' | hs'
      · exact hc.eq_of_serial_eq s hs s' hs' heq
      · rw [List.mem_singleton.mp hs'] at heq
        exact absurd heq (hold s hs)
      · rw [List.mem_singleton.mp hs] at heq
        exact absurd heq.symm (hold s' hs')
      · rw [List.mem_singleton.mp hs, List.mem_singleton.mp hs']

theorem numbered_clear (c : Cache) : c.clear.Numbered := ⟨by simp [clear], by simp [clear]⟩

theorem Numbered.after (hc : c.Numbered) (calls : List Call) : (c.after calls).Numbered :=
  after_induction hc (fun _ _ _ _ hc h => hc.lookup h) fun _ _ _ => numbered_clear _

theorem Lookup.nextSerial_le (h : Lookup c text result c') : c.nextSerial ≤ c'.nextSerial := by
  cases h with
  | kept | refused => exact le_rfl
  | added | passed => exact Nat.le_succ _

theorem nextSerial_le_after (c : Cache) (calls : List Call) :
    c.nextSerial ≤ (c.after calls).nextSerial :=
  after_induction (P := fun c' => c.nextSerial ≤ c'.nextSerial) le_rfl
    (fun _ _ _ _ hle h => hle.trans h.nextSerial_le) fun _ _ hle => hle

/-! ## Formats that stay -/

/-- A format that was read before is kept after some calls only if it was kept before them. -/
theorem mem_of_mem_after (hmem : entry ∈ (c.after calls).entries)
    (hold : entry.2.serial < c.nextSerial) : entry ∈ c.entries := by
  suffices h : c.nextSerial ≤ (c.after calls).nextSerial ∧
      (entry ∈ (c.after calls).entries → entry ∈ c.entries) from h.2 hmem
  refine after_induction
    (P := fun c' => c.nextSerial ≤ c'.nextSerial ∧ (entry ∈ c'.entries → entry ∈ c.entries))
    ⟨le_rfl, id⟩ ?_ fun _ c' h => ⟨h.1, by simp [clear]⟩
  rintro c₁ text result c₂ ⟨hle, hstay⟩ hlookup
  refine ⟨hle.trans hlookup.nextSerial_le, ?_⟩
  cases hlookup with
  | kept | refused | passed => exact hstay
  | added =>
    intro hmem
    rcases List.mem_append.mp hmem with hmem | hmem
    · exact hstay hmem
    · rw [List.mem_singleton.mp hmem] at hold
      exact absurd hold hle.not_gt

/-- A clear forgets every format that was read before it. -/
theorem clear_notMem_of_mem_after (hmem : entry ∈ (c.after calls).entries)
    (hold : entry.2.serial < c.nextSerial) : .clear ∉ calls := by
  intro hclear
  obtain ⟨calls₁, calls₂, rfl⟩ := List.append_of_mem hclear
  rw [after_append, after_cons] at hmem
  have hlater : entry.2.serial < (c.after calls₁).clear.nextSerial :=
    hold.trans_le (nextSerial_le_after c calls₁)
  exact absurd (mem_of_mem_after hmem hlater) List.not_mem_nil

/-- What is kept is found again until a clear. -/
theorem find?_after (hfind : c.find? text = some shared) (hclear : .clear ∉ calls) :
    (c.after calls).find? text = some shared := by
  refine after_induction (P := fun c' => c'.find? text = some shared) hfind ?_
    fun h => absurd h hclear
  intro c₁ text' result c₂ h hlookup
  cases hlookup with
  | kept | refused | passed => exact h
  | added =>
    rw [find?] at h ⊢
    simp [List.lookup_append, h]

/-- A full cache keeps what it has until a clear. -/
theorem entries_after_of_full (hfull : c.capacity ≤ c.entries.length) (hclear : .clear ∉ calls) :
    (c.after calls).entries = c.entries := by
  suffices h : (c.after calls).capacity = c.capacity ∧ (c.after calls).entries = c.entries from h.2
  refine after_induction (P := fun c' => c'.capacity = c.capacity ∧ c'.entries = c.entries)
    ⟨rfl, rfl⟩ ?_ fun h => absurd h hclear
  rintro c₁ text result c₂ ⟨hcapacity, hentries⟩ hlookup
  cases hlookup with
  | kept | refused | passed => exact ⟨hcapacity, hentries⟩
  | added _ _ hroom =>
    rw [hcapacity, hentries] at hroom
    exact absurd hroom hfull.not_gt

/-! ## Sharing -/

/-- A look-up of `text` and then, after calls in between, one of `text'` give the same shared
format. -/
def Shares (c : Cache) (text : String) (between : List Call) (text' : String) : Prop :=
  ∃ shared shared', (c.get text).1 = .ok shared ∧
    ((c.after (.get text :: between)).get text').1 = .ok shared' ∧ shared.serial = shared'.serial

/-- The format that a look-up gives is kept from then on, or there is no room for it. -/
theorem Lookup.find?_or_full (h : Lookup c text (.ok shared) c') :
    c'.find? text = some shared ∨
      shared.serial = c.nextSerial ∧ c'.entries = c.entries ∧ text ∉ c'.texts ∧
        c'.capacity ≤ c'.entries.length := by
  cases h with
  | kept hfind => exact .inl hfind
  | added hfind =>
    rw [find?] at hfind
    simp [find?, List.lookup_append, hfind]
  | passed hfind _ hfull => exact .inr ⟨rfl, rfl, find?_eq_none_iff.mp hfind, hfull⟩

theorem Lookup.serial_lt (hc : c.Numbered) (h : Lookup c text (.ok shared) c') :
    shared.serial < c'.nextSerial := by
  cases h with
  | kept hfind => exact hc.lt_nextSerial _ (mem_of_find?_eq_some hfind)
  | added | passed => exact Nat.lt_succ_self _

/-- An answer with a number given out before is kept, so it is found again. -/
theorem Lookup.find?_of_serial_lt (h : Lookup c text (.ok shared) c')
    (hlt : shared.serial < c.nextSerial) : c.find? text = some shared := by
  cases h with
  | kept hfind => exact hfind
  | added | passed => exact absurd hlt (lt_irrefl _)

/-- Where formats are kept under their own texts, the answers are formats of readable texts. -/
theorem Lookup.isOk_parse (hk : c.Keyed) (h : Lookup c text result c') :
    (Layout.parse text).isOk = result.isOk := by
  rw [isOk_parse_eq, ← h.map_format hk]
  cases result <;> rfl

theorem get_of_find?_eq_some (h : c.find? text = some shared) : c.get text = (.ok shared, c) := by
  simp [get, h]

/-- Look-ups share a format exactly if they ask for one readable text that stayed in the cache. -/
theorem shares_iff (hk : c.Keyed) (hc : c.Numbered) (text : String) (between : List Call)
    (text' : String) :
    c.Shares text between text' ↔
      text = text' ∧ (Layout.parse text).isOk ∧ .clear ∉ between ∧
        text ∈ (c.after (.get text :: between)).texts := by
  have hfirst := lookup_get c text
  have hread := hfirst.isOk_parse hk
  have hnumbered : (c.get text).2.Numbered := hc.lookup hfirst
  rw [Shares, after_cons, perform]
  constructor
  · rintro ⟨shared, shared', hget, hget', hserial⟩
    have hsecond := lookup_get ((c.get text).2.after between) text'
    rw [hget] at hfirst hread
    rw [hget'] at hsecond
    have hold : shared'.serial < (c.get text).2.nextSerial := hserial ▸ hfirst.serial_lt hc
    have hfind' := hsecond.find?_of_serial_lt (hold.trans_le (nextSerial_le_after _ between))
    have hlater := mem_of_find?_eq_some hfind'
    have hearlier := mem_of_mem_after hlater hold
    rcases hfirst.find?_or_full with hfind | ⟨hnext, hentries, -, -⟩
    · have hentry : (text, shared) = (text', shared') :=
        hnumbered.eq_of_serial_eq _ (mem_of_find?_eq_some hfind) _ hearlier hserial
      obtain ⟨rfl, rfl⟩ := Prod.mk.inj hentry
      refine ⟨rfl, hread, clear_notMem_of_mem_after hlater hold, ?_⟩
      by_contra hmem
      simp [find?_eq_none_iff.mpr hmem] at hfind'
    · -- A format that was not kept has a number that no entry had.
      rw [hentries] at hearlier
      exact absurd (hnext.symm.trans hserial) (hc.lt_nextSerial _ hearlier).ne'
  · rintro ⟨rfl, hparse, hclear, hmem⟩
    rw [hread] at hparse
    cases hget : (c.get text).1 with
    | error e => simp [hget, Except.isOk, Except.toBool] at hparse
    | ok shared =>
      rw [hget] at hfirst
      rcases hfirst.find?_or_full with hfind | ⟨-, -, hnotMem, hfull⟩
      · have hget' := get_of_find?_eq_some (find?_after hfind hclear)
        exact ⟨shared, shared, rfl, by rw [hget'], rfl⟩
      · rw [texts, entries_after_of_full hfull hclear] at hmem
        exact absurd hmem hnotMem

/-- A new cache keeps, after any history, the first requests since the last clear as far as it has
room, each format under its own text. Two look-ups in a history share a format exactly if they ask
for one text, it can be read and is kept, and nothing was cleared between them. -/
theorem kept_and_shared (capacity : ℕ) :
    (∀ calls, ((empty capacity).after calls).Keyed ∧
      ((empty capacity).after calls).texts = (firstRequests calls).take capacity ∧
      ((empty capacity).after calls).size = ((firstRequests calls).take capacity).length ∧
      ((empty capacity).after calls).size ≤ capacity ∧
      (((empty capacity).after calls).isEmpty ↔ ((empty capacity).after calls).size = 0)) ∧
    ∀ before text between text', ((empty capacity).after before).Shares text between text' ↔
      text = text' ∧ (Layout.parse text).isOk ∧ .clear ∉ between ∧
        text ∈ ((empty capacity).after (before ++ .get text :: between)).texts := by
  refine ⟨fun calls => ?_, fun before text between text' => ?_⟩
  · have htexts := texts_after capacity calls
    have hsize : ((empty capacity).after calls).size =
        ((firstRequests calls).take capacity).length := by
      rw [← htexts, length_texts, size]
    refine ⟨keyed_after capacity calls, htexts, hsize, hsize ▸ List.length_take_le _ _, ?_⟩
    rw [isEmpty, size, List.isEmpty_iff, List.length_eq_zero_iff]
  · rw [shares_iff (keyed_after capacity before) ((numbered_empty capacity).after before),
      after_append]

end BinaryRecord.Cache
