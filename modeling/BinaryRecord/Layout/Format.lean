import BinaryRecord.Layout.Pack
import BinaryRecord.Layout.Parse
import BinaryRecord.Layout.Unpack

/-!
# Formats

A format that has been read: its text together with the layout it describes. The
operations of the library take a format's text and read it first, so an error in
it comes before all others.
-/

namespace BinaryRecord

/-- A text and the layout that it describes. -/
structure Format where
  /-- The text as given. -/
  text : String
  /-- The groups that the text describes. -/
  layout : Layout
  /-- The layout is that of the text. -/
  parse_text : Layout.parse text = .ok layout

namespace Format

/-- Reads a format. -/
def parse (text : String) : Except Error Format :=
  match h : Layout.parse text with
  | .ok layout => .ok ⟨text, layout, h⟩
  | .error e => .error e

/-- A text is read as a format of that text, if it is read at all. -/
theorem parse_eq_ok_iff_text_eq {text : String} {f : Format} :
    parse text = .ok f ↔ f.text = text := by
  obtain ⟨t, layout, ht⟩ := f
  unfold parse
  constructor
  · intro h
    split at h
    · exact congrArg Format.text (Except.ok.inj h).symm
    · cases h
  · rintro rfl
    split
    · next layout' h =>
      obtain rfl : layout' = layout := Except.ok.inj (h.symm.trans ht)
      rfl
    · next e h => cases h.symm.trans ht

/-- Reading a format gives its layout and refuses what has none. -/
theorem map_layout_parse (text : String) :
    (parse text).map (·.layout) = Layout.parse text := by
  unfold parse
  split <;> next h => exact h.symm

end Format
end BinaryRecord
