import BinaryRecord.Command.Workspace
import BinaryRecord.Proofs.Except

/-!
# Files of a workspace

What a write does to the files: the file that the path leads to holds the new bytes and can
be read back under the same path, and every other file is what it was. Directories stay, so
the path leads to the same place afterwards.

## Main definitions

* `Workspace.resolve`: the place that a path leads to.
* `Workspace.Replaces`: one file has a new content and the others are what they were.
-/

namespace BinaryRecord.Workspace
variable {w w' : Workspace} {path : String} {bs : Bytes} {here there place other : Place}

/-- The place that a path leads to. -/
def resolve (w : Workspace) (path : String) : Except FileError Place := do
  let path ← Path.ofString path
  let here ← w.enter path.start path.through
  here.step path.last

/-- The content of the file at a place. -/
def content? (w : Workspace) (place : Place) : Option Bytes := w.files.lookup place

/-- The workspace with the file at a place replaced, or added. -/
def stored (w : Workspace) (place : Place) (bs : Bytes) : Workspace :=
  { w with files := store place bs w.files }

/-- The file that the path leads to holds the bytes, and every other file is what it was. -/
def Replaces (w w' : Workspace) (path : String) (bs : Bytes) : Prop :=
  w'.read path = .ok bs ∧ ∃ place, w.resolve path = .ok place ∧ w'.content? place = some bs ∧
    ∀ other, other ≠ place → w'.content? other = w.content? other

/-! ## Paths depend on the files alone -/

theorem entry_congr (h : w'.files = w.files) (place : Place) : w'.entry place = w.entry place := by
  unfold entry hasBeneath
  rw [h]

theorem enter_congr (h : w'.files = w.files) (here : Place) (names : List String) :
    w'.enter here names = w.enter here names := by
  induction names generalizing here with
  | nil => rfl
  | cons name names ih =>
    rw [enter, enter]
    cases here.step name with
    | error e => rfl
    | ok there => simp only [entry_congr h, ih]

theorem read_congr (h : w'.files = w.files) (path : String) : w'.read path = w.read path := by
  simp only [read, enter_congr h, entry_congr h]

theorem resolve_congr (h : w'.files = w.files) (path : String) :
    w'.resolve path = w.resolve path := by
  simp only [resolve, enter_congr h]

/-! ## Storing -/

theorem lookup_store (place : Place) (bs : Bytes) (files : List (Place × Bytes)) :
    (store place bs files).lookup place = some bs := by
  induction files with
  | nil => simp [store]
  | cons f files ih =>
    unfold store
    by_cases h : f.1 = place
    · simp [h]
    · have hne : (place == f.1) = false := by simpa using Ne.symm h
      rw [if_neg h, List.lookup_cons, hne]
      exact ih

theorem lookup_store_ne (h : other ≠ place) (bs : Bytes) (files : List (Place × Bytes)) :
    (store place bs files).lookup other = files.lookup other := by
  have hne : (other == place) = false := by simpa using h
  induction files with
  | nil => simp [store, List.lookup_cons, hne]
  | cons f files ih =>
    unfold store
    by_cases hf : f.1 = place
    · rw [if_pos hf, List.lookup_cons, List.lookup_cons, hf, hne]
    · rw [if_neg hf, List.lookup_cons, List.lookup_cons, ih]

theorem any_store (p : Place → Bool) (place : Place) (bs : Bytes) (files : List (Place × Bytes)) :
    ((store place bs files).any fun f => p f.1) = (p place || files.any fun f => p f.1) := by
  induction files with
  | nil => simp [store]
  | cons f files ih =>
    unfold store
    by_cases h : f.1 = place
    · simp [h]
    · rw [if_neg h, List.any_cons, ih, List.any_cons, Bool.or_left_comm]

theorem hasBeneath_stored (w : Workspace) (place : Place) (bs : Bytes) (here : Place) :
    (w.stored place bs).hasBeneath here =
      ((here.isPrefixOf place && place != here) || w.hasBeneath here) :=
  any_store (fun there => here.isPrefixOf there && there != here) place bs w.files

theorem entry_eq_directory_iff :
    w.entry here = .directory ↔ here.isAbove = true ∨ w.hasBeneath here = true := by
  rw [← Bool.or_eq_true]
  unfold entry
  by_cases h : (here.isAbove || w.hasBeneath here) = true
  · simp [h]
  · rw [if_neg h]
    cases w.files.lookup here <;> simp [h]

theorem entry_stored_of_directory (h : w.entry here = .directory) (place : Place) (bs : Bytes) :
    (w.stored place bs).entry here = .directory := by
  rw [entry_eq_directory_iff] at h ⊢
  rw [hasBeneath_stored, Bool.or_eq_true]
  exact h.imp_right .inr

theorem entry_stored (h : w.entry place ≠ .directory) (bs : Bytes) :
    (w.stored place bs).entry place = .file bs := by
  have hplain : ¬(place.isAbove || (w.stored place bs).hasBeneath place) = true := by
    rw [Bool.or_eq_true, hasBeneath_stored]
    simpa [entry_eq_directory_iff] using h
  unfold entry
  rw [if_neg hplain]
  simp [stored, lookup_store]

/-- What is entered is directories, and they stay. -/
theorem enter_stored {names : List String} (h : w.enter here names = .ok there) (place : Place)
    (bs : Bytes) : (w.stored place bs).enter here names = .ok there := by
  induction names generalizing here with
  | nil => exact h
  | cons name names ih =>
    rw [enter] at h ⊢
    cases hstep : here.step name with
    | error e => simp [hstep] at h
    | ok next =>
      cases hentry : w.entry next with
      | directory =>
        simp only [hstep, hentry] at h
        simp only [entry_stored_of_directory hentry]
        exact ih h
      | file content => simp [hstep, hentry] at h
      | absent => simp [hstep, hentry] at h

/-! ## Writing -/

/-- A write succeeds exactly if the path has no slash at its end and leads to a place in a
directory where no directory stands, and it stores the bytes there. -/
theorem write_eq_ok_iff :
    w.write path bs = .ok w' ↔ ∃ p here place, Path.ofString path = .ok p ∧ p.slash = false ∧
      w.enter p.start p.through = .ok here ∧ here.step p.last = .ok place ∧
      w.entry place ≠ .directory ∧ w.stored place bs = w' := by
  unfold write
  simp only [Except.bind_eq_ok_iff]
  constructor
  · rintro ⟨p, hp, here, henter, h⟩
    by_cases hslash : p.slash = true
    · simp [hslash] at h
    · rw [if_neg hslash] at h
      obtain ⟨place, hstep, h⟩ := Except.bind_eq_ok_iff.mp h
      refine ⟨p, here, place, hp, by simpa using hslash, henter, hstep, ?_⟩
      cases hentry : w.entry place with
      | directory => simp [hentry] at h
      | file content => simpa [hentry, stored] using h
      | absent => simpa [hentry, stored] using h
  · rintro ⟨p, here, place, hp, hslash, henter, hstep, hentry, rfl⟩
    refine ⟨p, hp, here, henter, ?_⟩
    rw [hslash, if_neg Bool.false_ne_true]
    refine Except.bind_eq_ok_iff.mpr ⟨place, hstep, ?_⟩
    cases hplain : w.entry place with
    | directory => exact absurd hplain hentry
    | file content => rfl
    | absent => rfl

theorem Replaces.of_write (h : w.write path bs = .ok w') : w.Replaces w' path bs := by
  obtain ⟨p, here, place, hp, hslash, henter, hstep, hentry, rfl⟩ := write_eq_ok_iff.mp h
  refine ⟨?_, place, ?_, lookup_store place bs w.files, ?_⟩
  · simp [read, hp, hslash, enter_stored henter, hstep, entry_stored hentry, bind, Except.bind]
  · simp [resolve, hp, henter, hstep, bind, Except.bind]
  · intro other hother
    exact lookup_store_ne hother bs w.files

/-- Only the files of the two workspaces matter. -/
theorem Replaces.congr {w₁ w₁' : Workspace} (h : w.Replaces w' path bs)
    (hw : w₁.files = w.files) (hw' : w₁'.files = w'.files) : w₁.Replaces w₁' path bs := by
  obtain ⟨hread, place, hplace, hplaced, hothers⟩ := h
  refine ⟨(read_congr hw' path).trans hread, place, (resolve_congr hw path).trans hplace, ?_, ?_⟩
  · rw [content?, hw']
    exact hplaced
  · intro other hother
    rw [content?, content?, hw, hw']
    exact hothers other hother

end BinaryRecord.Workspace
