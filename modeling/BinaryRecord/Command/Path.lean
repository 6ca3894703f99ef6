import BinaryRecord.Command.Failure

/-!
# Paths

The text of a path, taken apart as on a Unix system: where it starts, the names of
the directories that it goes through, and the name at its end. Empty names between
slashes do not count. A path that cannot be taken apart is refused before any
directory is looked at.

## Main definitions

* `Place`: a position in the tree of directories, seen from the working directory.
* `Path.ofString`: the parts of a path.
* `Place.step`: the place that a name leads to from a directory.
-/

namespace BinaryRecord

/-- A position in the tree of directories: the names on the way to it from the
working directory, which is the empty list. Steps out of the working directory, `..`,
stand only at the front; the empty name at the front stands for the root. -/
abbrev Place := List String

namespace Place

/-- The longest name of a file or directory, in bytes. -/
def nameLimit : Nat := 255

/-- The top of the tree. -/
def root : Place := [""]

/-- Is the place the working directory or one that it lies in? -/
def isAbove (here : Place) : Bool := here = root || here.all (· = "..")

/-- The directory that a directory lies in. The root lies in itself. -/
def parent (here : Place) : Place :=
  if here = root then root
  else if here.isAbove then ".." :: here
  else here.dropLast

/-- The place that a name leads to from a directory. -/
def step (here : Place) (name : String) : Except FileError Place :=
  if name = "." then .ok here
  else if name = ".." then .ok here.parent
  else if name.utf8ByteSize ≤ nameLimit then .ok (here ++ [name])
  else .error .nameTooLong

/-- The text of a place. -/
def text (here : Place) : String := "/".intercalate here

/-- Does the place lie in the working directory? -/
def isInside (here : Place) : Bool := here.head? ≠ some "" && here.head? ≠ some ".."

end Place

/-- The parts of a path. -/
structure Path where
  /-- The directory in which the path starts. -/
  start : Place
  /-- The names of the directories on the way. -/
  through : List String
  /-- The name at the end. -/
  last : String
  /-- Does a slash behind the name demand a directory? -/
  slash : Bool

namespace Path

/-- The longest path, in bytes. -/
def lengthLimit : Nat := 4095

/-- Splits a text at its slashes. -/
def split : List Char → List (List Char)
  | [] => [[]]
  | c :: cs =>
    if c = '/' then [] :: split cs
    else
      match split cs with
      | [] => [[c]]
      | name :: names => (c :: name) :: names

/-- The names between the slashes of a text, in order. -/
def names (cs : List Char) : List String :=
  ((split cs).filter (· ≠ [])).map String.ofList

/-- Takes a path apart. A path of slashes alone leads to where it starts. -/
def ofString (s : String) : Except FileError Path :=
  let cs := s.toList
  if cs.contains '\x00' then .error .nulInName
  else if cs = [] then .error .notFound
  else if lengthLimit < s.utf8ByteSize then .error .nameTooLong
  else .ok {
    start := if cs.head? = some '/' then .root else []
    through := (names cs).dropLast
    last := (names cs).getLastD "."
    slash := cs.getLast? = some '/' }

end Path
end BinaryRecord
