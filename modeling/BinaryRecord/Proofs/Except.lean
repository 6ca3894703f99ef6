import Mathlib.Data.Nat.Notation

/-!
# Rows of results

A computation that may fail is opened by what it gives. A row of such results has a
joint result: all values, or the first error.

## Main definitions

* `Except.all`: the joint result of a row.
* `Except.Agree`: the same value, or errors that correspond.
-/

namespace Except
variable {ε δ α β : Type}

theorem map_eq_ok_iff {f : α → β} {x : Except ε α} {b : β} :
    x.map f = .ok b ↔ ∃ a, x = .ok a ∧ f a = b := by
  cases x <;> simp [Except.map]

theorem map_eq_error_iff {f : α → β} {x : Except ε α} {e : ε} :
    x.map f = .error e ↔ x = .error e := by
  cases x <;> simp [Except.map]

theorem mapError_eq_ok_iff {f : ε → δ} {x : Except ε α} {a : α} :
    x.mapError f = .ok a ↔ x = .ok a := by
  cases x with
  | error e => exact ⟨nofun, nofun⟩
  | ok b =>
    constructor
    · rintro ⟨⟩
      rfl
    · rintro ⟨⟩
      rfl

theorem mapError_eq_error_iff {f : ε → δ} {x : Except ε α} {e : δ} :
    x.mapError f = .error e ↔ ∃ e', x = .error e' ∧ f e' = e := by
  cases x with
  | error e' =>
    constructor
    · intro h
      exact ⟨e', rfl, Except.error.inj h⟩
    · rintro ⟨e', ⟨⟩, rfl⟩
      rfl
  | ok b => exact ⟨nofun, nofun⟩

theorem bind_eq_ok_iff {x : Except ε α} {f : α → Except ε β} {b : β} :
    (x >>= f) = .ok b ↔ ∃ a, x = .ok a ∧ f a = .ok b := by
  cases x <;> simp [bind, Except.bind]

theorem map_bind {γ : Type} (x : Except ε α) (f : α → Except ε β) (h : β → γ) :
    (x >>= f).map h = x >>= fun a => (f a).map h := by
  cases x <;> rfl

/-- The joint result of a row: all values, or the first error. -/
def all (xs : List (Except ε α)) : Except ε (List α) := xs.mapM id

@[simp] theorem all_nil : all ([] : List (Except ε α)) = .ok [] := rfl

theorem all_cons (x : Except ε α) (xs : List (Except ε α)) :
    all (x :: xs) = x >>= fun a => (all xs).map (a :: ·) := by
  rw [all, List.mapM_cons]
  cases x with
  | error e => rfl
  | ok a =>
    change (do let as ← all xs; pure (a :: as)) = (all xs).map (a :: ·)
    cases all xs <;> rfl

theorem all_append (xs ys : List (Except ε α)) :
    all (xs ++ ys) = all xs >>= fun as => (all ys).map (as ++ ·) := by
  rw [all, List.mapM_append]
  change (do let as ← all xs; let bs ← all ys; pure (as ++ bs)) = _
  cases all xs <;> cases all ys <;> rfl

theorem all_map (f : α → Except ε β) (as : List α) : all (as.map f) = as.mapM f := by
  simp [all]

/-- A change to each member of a row changes each of its values. -/
theorem all_map_map (f : α → β) (xs : List (Except ε α)) :
    all (xs.map (·.map f)) = (all xs).map (List.map f) := by
  induction xs with
  | nil => rfl
  | cons x xs ih =>
    rw [List.map_cons, all_cons, all_cons, ih]
    cases x with
    | error e => rfl
    | ok a => cases all xs <;> rfl

/-- A row succeeds exactly if each of its results does. -/
theorem all_eq_ok_iff {xs : List (Except ε α)} {as : List α} :
    all xs = .ok as ↔ xs = as.map .ok := by
  induction xs generalizing as with
  | nil => cases as <;> simp
  | cons x xs ih =>
    rw [all_cons, bind_eq_ok_iff]
    constructor
    · rintro ⟨a, rfl, hmap⟩
      obtain ⟨as', hall, rfl⟩ := map_eq_ok_iff.mp hmap
      rw [List.map_cons, ih.mp hall]
    · intro h
      cases as with
      | nil => simp at h
      | cons a as =>
        obtain ⟨rfl, htail⟩ := List.cons.inj h
        exact ⟨a, rfl, map_eq_ok_iff.mpr ⟨as, ih.mpr htail, rfl⟩⟩

/-- A row fails with the error of its first failing member. -/
theorem all_eq_error_iff {xs : List (Except ε α)} {e : ε} :
    all xs = .error e ↔
      ∃ j : ℕ, xs[j]? = some (.error e) ∧ ∀ i < j, ∃ a, xs[i]? = some (.ok a) := by
  induction xs with
  | nil => simp
  | cons x xs ih =>
    rw [all_cons]
    cases x with
    | error e' =>
      constructor
      · intro h
        exact ⟨0, by simpa [bind, Except.bind] using h, by omega⟩
      · rintro ⟨j, hj, hbefore⟩
        cases j with
        | zero => simpa [bind, Except.bind] using hj
        | succ j =>
          obtain ⟨a, ha⟩ := hbefore 0 (by omega)
          simp at ha
    | ok a =>
      change (all xs).map (a :: ·) = .error e ↔ _
      rw [map_eq_error_iff, ih]
      constructor
      · rintro ⟨j, hj, hbefore⟩
        refine ⟨j + 1, by simpa using hj, ?_⟩
        intro i hi
        cases i with
        | zero => exact ⟨a, by simp⟩
        | succ i => simpa using hbefore i (by omega)
      · rintro ⟨j, hj, hbefore⟩
        cases j with
        | zero => simp at hj
        | succ j =>
          refine ⟨j, by simpa using hj, ?_⟩
          intro i hi
          simpa using hbefore (i + 1) (by omega)

/-! ## Results that agree -/

/-- The same value, or errors that correspond. -/
inductive Agree (ρ : ε → δ → Prop) : Except ε α → Except δ α → Prop
  | ok (a : α) : Agree ρ (.ok a) (.ok a)
  | error {e : ε} {e' : δ} (h : ρ e e') : Agree ρ (.error e) (.error e')

namespace Agree
variable {ρ : ε → δ → Prop}

theorem refl {ρ : ε → ε → Prop} (h : ∀ e, ρ e e) (x : Except ε α) : Agree ρ x x := by
  cases x with
  | error e => exact .error (h e)
  | ok a => exact .ok a

theorem bind {x : Except ε α} {y : Except δ α} {f : α → Except ε β} {g : α → Except δ β}
    (h : Agree ρ x y) (hfg : ∀ a, Agree ρ (f a) (g a)) : Agree ρ (x >>= f) (y >>= g) := by
  cases h with
  | ok a => exact hfg a
  | error h => exact .error h

theorem map {x : Except ε α} {y : Except δ α} (h : Agree ρ x y) (f : α → β) :
    Agree ρ (x.map f) (y.map f) := by
  cases h with
  | ok a => exact .ok (f a)
  | error h => exact .error h

/-- Rows that agree one by one have joint results that agree. -/
theorem mapM {f : α → Except ε β} {g : α → Except δ β} {as : List α}
    (h : ∀ a ∈ as, Agree ρ (f a) (g a)) : Agree ρ (as.mapM f) (as.mapM g) := by
  induction as with
  | nil => exact .ok []
  | cons a as ih =>
    rw [List.mapM_cons, List.mapM_cons]
    refine bind (h a List.mem_cons_self) ?_
    intro b
    refine bind (ih fun a ha => h a (List.mem_cons_of_mem _ ha)) ?_
    intro bs
    exact .ok (b :: bs)

end Agree

end Except
