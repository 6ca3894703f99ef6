import BinaryRecord.Proofs.Cache.Call

/-!
# A cache does not show in the answers

Whatever was called before, an operation on a format's text answers as the same operation on the
layout that is read from the text at that moment. A look-up goes by the key alone, so this holds
only of a cache whose formats stand under their own texts, and every history of hits, misses and
clears on a new cache leads to such a one. A text that cannot be read is refused each time with
the same error and leaves no trace.

## Main definitions

* `Cache.Transparent`: the cache answers as reading afresh does.
-/

namespace BinaryRecord.Cache
variable {c : Cache} {text : String}

/-- The cache answers every call as reading the text afresh does. -/
structure Transparent (c : Cache) : Prop where
  /-- A text that can be read gives a format of that text with the layout read from it. -/
  get_of_ok : ∀ (text : String) (layout : Layout), Layout.parse text = .ok layout →
    ∃ shared, (c.get text).1 = .ok shared ∧ shared.format.text = text ∧
      shared.format.layout = layout
  /-- A text that cannot be read gives the error of reading it and changes nothing. -/
  get_of_error : ∀ (text : String) (e : Error), Layout.parse text = .error e →
    c.get text = (.error e, c)
  byteLength_eq : ∀ text, (c.byteLength text).1 = (Layout.parse text).map Layout.byteLength
  pack_eq : ∀ text mode vs, (c.pack text mode vs).1 = (Layout.parse text).bind (·.pack mode vs)
  /-- The result and the buffer afterwards, which is unchanged if the text cannot be read. -/
  packAt_eq : ∀ text mode offset vs buffer,
    ((c.packAt text mode offset vs buffer).1, (c.packAt text mode offset vs buffer).2.1) =
      match Layout.parse text with
      | .ok layout => layout.packAt mode offset vs buffer
      | .error e => (.error e, buffer)
  unpack_eq : ∀ text mode bs,
    (c.unpack text mode bs).1 = (Layout.parse text).bind (·.unpack mode bs)
  unpackAt_eq : ∀ text mode offset bs,
    (c.unpackAt text mode offset bs).1 = (Layout.parse text).bind (·.unpackAt mode offset bs)

/-- The layout that a look-up gives is the one read from the text. -/
theorem Keyed.map_layout_get (hc : c.Keyed) (text : String) :
    (c.get text).1.map (·.format.layout) = Layout.parse text := by
  rw [← Format.map_layout_parse, ← (lookup_get c text).map_format hc]
  cases (c.get text).1 <;> rfl

theorem Keyed.get_of_parse_eq_ok (hc : c.Keyed) {layout : Layout}
    (h : Layout.parse text = .ok layout) :
    ∃ shared, (c.get text).1 = .ok shared ∧ shared.format.text = text ∧
      shared.format.layout = layout := by
  have hlayout := hc.map_layout_get text
  rw [h] at hlayout
  obtain ⟨shared, hget, hshared⟩ := Except.map_eq_ok_iff.mp hlayout
  have hformat := (lookup_get c text).map_format hc
  rw [hget] at hformat
  exact ⟨shared, hget, Format.parse_eq_ok_iff_text_eq.mp hformat.symm, hshared⟩

theorem Keyed.get_of_parse_eq_error (hc : c.Keyed) {e : Error}
    (h : Layout.parse text = .error e) :
    c.get text = (.error e, c) := by
  rw [← Format.map_layout_parse, Except.map_eq_error_iff] at h
  have hlookup := lookup_get c text
  have hformat := hlookup.map_format hc
  rw [h, Except.map_eq_error_iff] at hformat
  rw [hformat] at hlookup
  refine Prod.ext hformat ?_
  generalize (c.get text).2 = c' at hlookup
  cases hlookup
  rfl

theorem Keyed.withLayout_fst (hc : c.Keyed) {α : Type} (text : String)
    (f : Layout → Except Error α) :
    (c.withLayout text f).1 = (Layout.parse text).bind f := by
  rw [← hc.map_layout_get text, withLayout]
  rcases c.get text with ⟨e | shared, c'⟩ <;> rfl

/-- Packing into a buffer fails before it touches the buffer if the text cannot be read. -/
theorem Keyed.packAt_fst_snd (hc : c.Keyed) (text : String) (mode : Mode) (offset : ℕ)
    (vs : List Value) (buffer : Bytes) :
    ((c.packAt text mode offset vs buffer).1, (c.packAt text mode offset vs buffer).2.1) =
      match Layout.parse text with
      | .ok layout => layout.packAt mode offset vs buffer
      | .error e => (.error e, buffer) := by
  rw [← hc.map_layout_get text, packAt]
  rcases c.get text with ⟨e | shared, c'⟩ <;> rfl

/-- A cache whose formats stand under their own texts does not show in its answers. -/
theorem Keyed.transparent (hc : c.Keyed) : c.Transparent where
  get_of_ok _ _ h := hc.get_of_parse_eq_ok h
  get_of_error _ _ h := hc.get_of_parse_eq_error h
  byteLength_eq text := by
    rw [byteLength, hc.withLayout_fst]
    cases Layout.parse text <;> rfl
  pack_eq text mode vs := hc.withLayout_fst text (·.pack mode vs)
  packAt_eq := hc.packAt_fst_snd
  unpack_eq text mode bs := hc.withLayout_fst text (·.unpack mode bs)
  unpackAt_eq text mode offset bs := hc.withLayout_fst text (·.unpackAt mode offset bs)

/-- Whatever was called on a new cache of any capacity, it answers as reading afresh does. -/
theorem transparent_after (capacity : ℕ) (history : List Call) :
    ((empty capacity).after history).Transparent :=
  (keyed_after capacity history).transparent

end BinaryRecord.Cache
