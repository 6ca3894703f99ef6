import BinaryRecord.Command.Basic
import BinaryRecord.Command.Path

/-!
# A pure workspace

A model of the surroundings of a command: a working directory of files, a standard
input, and what has been printed and logged so far. Paths are followed as on a Unix
system. Directories exist as far as files lie in them, and none are ever made; those
above the working directory exist too, and hold nothing but what the command writes.

## Main definitions

* `Workspace`: files, standard input, output and log.
* `Workspace.host`: the operations of a command on a workspace.
* `Workspace.run`: the outcome of a command and the workspace afterwards.
-/

namespace BinaryRecord

/-- A working directory with the standard streams. -/
structure Workspace where
  /-- The files and where they stand. -/
  files : List (Place × Bytes)
  /-- The standard input. -/
  stdin : Bytes
  /-- What has been printed. -/
  stdout : String
  /-- What has been logged. -/
  events : List Event

namespace Workspace

/-- A workspace before a command runs, from the names of its files, their contents
and the standard input. -/
def start (files : List (String × Bytes)) (stdin : Bytes) : Workspace :=
  ⟨files.map fun f => (Path.names f.1.toList, f.2), stdin, "", []⟩

/-- The files of the working directory by name. -/
def namedFiles (w : Workspace) : List (String × Bytes) :=
  (w.files.filter (·.1.isInside)).map fun f => (f.1.text, f.2)

/-! ## Places -/

/-- What stands at a place. -/
inductive Entry where
  | directory
  | file (content : Bytes)
  | absent

/-- Does a file lie somewhere beneath the place? -/
def hasBeneath (w : Workspace) (place : Place) : Bool :=
  w.files.any fun f => place.isPrefixOf f.1 && f.1 != place

/-- What stands at a place. -/
def entry (w : Workspace) (place : Place) : Entry :=
  if place.isAbove || w.hasBeneath place then .directory
  else
    match w.files.lookup place with
    | some bs => .file bs
    | none => .absent

/-- Goes from a directory through the directories of the given names. -/
def enter (w : Workspace) (here : Place) : List String → Except FileError Place
  | [] => .ok here
  | name :: names =>
    match here.step name with
    | .error e => .error e
    | .ok there =>
      match w.entry there with
      | .directory => w.enter there names
      | .file _ => .error .notDirectory
      | .absent => .error .notFound

/-! ## Operations -/

/-- Replaces the content of a file, or adds the file. -/
def store (place : Place) (bs : Bytes) : List (Place × Bytes) → List (Place × Bytes)
  | [] => [(place, bs)]
  | f :: files => if f.1 = place then (place, bs) :: files else f :: store place bs files

/-- The content of the file that a path leads to. -/
def read (w : Workspace) (path : String) : Except FileError Bytes := do
  let path ← Path.ofString path
  let here ← w.enter path.start path.through
  let there ← here.step path.last
  match w.entry there with
  | .directory => .error .isDirectory
  | .file bs => if path.slash then .error .notDirectory else .ok bs
  | .absent => .error .notFound

/-- Writes the file that a path leads to. A path that ends in a slash asks for a
directory, which is refused before its last name is looked up. -/
def write (w : Workspace) (path : String) (bs : Bytes) : Except FileError Workspace := do
  let path ← Path.ofString path
  let here ← w.enter path.start path.through
  if path.slash then .error .isDirectory
  else
    let there ← here.step path.last
    match w.entry there with
    | .directory => .error .isDirectory
    | _ => .ok { w with files := store there bs w.files }

/-- The operations of a command on a workspace. -/
def host : Host (StateM Workspace) where
  readStdin := fun w => (.ok w.stdin, { w with stdin := [] })
  readFile path := fun w => (w.read path, w)
  writeFile path bs := fun w =>
    match w.write path bs with
    | .ok w' => (.ok (), w')
    | .error e => (.error e, w)
  print s := fun w => ((), { w with stdout := w.stdout ++ s })
  log e := fun w => ((), { w with events := w.events ++ [e] })

/-- The outcome of a command and the workspace afterwards. -/
def run (w : Workspace) (c : Command) : Except Failure Unit × Workspace :=
  (c.run host).run w

end Workspace
end BinaryRecord
