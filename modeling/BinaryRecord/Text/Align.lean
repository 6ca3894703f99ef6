/-!
# Columns

Text filled with blanks to a least width. Text that is wider stays as it is.
-/

namespace BinaryRecord.Text

/-- The blanks that bring a text to the given width. -/
def blanks (width : Nat) (s : String) : String :=
  String.ofList (List.replicate (width - s.length) ' ')

/-- Text at the left edge of a column. -/
def alignLeft (width : Nat) (s : String) : String := s ++ blanks width s

/-- Text at the right edge of a column. -/
def alignRight (width : Nat) (s : String) : String := blanks width s ++ s

end BinaryRecord.Text
