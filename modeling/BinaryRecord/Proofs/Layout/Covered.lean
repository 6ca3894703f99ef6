import BinaryRecord.Proofs.Layout.Scans

/-!
# The groups that are covered

A scan takes groups as long as there is enough for each. The groups that it takes are
the longest run from the front whose demands, values or bytes, add up to at most what
there is.

## Main definitions

* `Layout.covered`: how many groups there is enough for.
-/

namespace BinaryRecord.Layout
variable {demand : Group → ℕ} {layout : Layout}

theorem byteLength_eq_sum (layout : Layout) :
    layout.byteLength = (layout.map Group.byteLength).sum := by
  induction layout with
  | nil => rfl
  | cons g layout ih => rw [byteLength, ih, List.map_cons, List.sum_cons]

/-- The number of groups from the front whose demands add up to at most `n`. -/
def covered (demand : Group → ℕ) : Layout → (n : ℕ) → ℕ
  | [], _ => 0
  | g :: layout, n => if n < demand g then 0 else covered demand layout (n - demand g) + 1

@[simp] theorem covered_nil (n : ℕ) : covered demand [] n = 0 := rfl

theorem covered_of_lt {g : Group} {n : ℕ} (h : n < demand g) :
    covered demand (g :: layout) n = 0 := by
  rw [covered, if_pos h]

theorem covered_of_le {g : Group} {n : ℕ} (h : demand g ≤ n) :
    covered demand (g :: layout) n = layout.covered demand (n - demand g) + 1 := by
  rw [covered, if_neg (by omega)]

theorem covered_le_length (layout : Layout) (n : ℕ) :
    layout.covered demand n ≤ layout.length := by
  induction layout generalizing n with
  | nil => simp
  | cons g layout ih =>
    by_cases h : n < demand g
    · simp [covered_of_lt h]
    · simpa [covered_of_le (Nat.le_of_not_lt h)] using ih (n - demand g)

/-- There is enough for `k` groups exactly if their demands add up to at most `n`. -/
theorem le_covered_iff {k n : ℕ} (hk : k ≤ layout.length) :
    k ≤ layout.covered demand n ↔ ((layout.take k).map demand).sum ≤ n := by
  induction layout generalizing k n with
  | nil =>
    obtain rfl : k = 0 := by simpa using hk
    simp
  | cons g layout ih =>
    cases k with
    | zero => simp
    | succ k =>
      rw [List.take_succ_cons, List.map_cons, List.sum_cons]
      by_cases h : n < demand g
      · rw [covered_of_lt h]
        omega
      · have hrest := ih (n := n - demand g) (Nat.le_of_succ_le_succ hk)
        rw [covered_of_le (Nat.le_of_not_lt h)]
        omega

theorem sum_take_covered_le (layout : Layout) (n : ℕ) :
    ((layout.take (layout.covered demand n)).map demand).sum ≤ n :=
  (le_covered_iff (covered_le_length layout n)).mp (Nat.le_refl _)

/-- What is left does not suffice for the first group that is not covered. -/
theorem lt_demand_of_drop_covered {g : Group} {rest : Layout} {n : ℕ}
    (h : layout.drop (layout.covered demand n) = g :: rest) :
    n - ((layout.take (layout.covered demand n)).map demand).sum < demand g := by
  induction layout generalizing n with
  | nil => simp at h
  | cons g' layout ih =>
    by_cases hlt : n < demand g'
    · rw [covered_of_lt hlt] at h ⊢
      obtain ⟨rfl, -⟩ := List.cons.inj h
      simpa using hlt
    · rw [covered_of_le (Nat.le_of_not_lt hlt)] at h ⊢
      rw [List.take_succ_cons, List.map_cons, List.sum_cons, ← Nat.sub_sub]
      exact ih h

/-! ## Runs from the front -/

theorem byteLength_take_add (layout : Layout) (k : ℕ) :
    byteLength (layout.take k) + byteLength (layout.drop k) = layout.byteLength := by
  rw [← byteLength_append, List.take_append_drop]

theorem byteLength_take_le (layout : Layout) (k : ℕ) :
    byteLength (layout.take k) ≤ layout.byteLength :=
  Nat.le_of_add_right_le (Nat.le_of_eq (byteLength_take_add layout k))

theorem valueCount_take_add (layout : Layout) (k : ℕ) :
    valueCount (layout.take k) + valueCount (layout.drop k) = layout.valueCount := by
  rw [← valueCount_append, List.take_append_drop]

theorem WellFormed.take (h : layout.WellFormed) (k : ℕ) : WellFormed (layout.take k) :=
  ⟨fun g hg => h.groups g (List.mem_of_mem_take hg),
    Nat.le_trans (byteLength_take_le layout k) h.byteLength_le⟩

theorem WellFormed.drop (h : layout.WellFormed) (k : ℕ) : WellFormed (layout.drop k) := by
  have hsplit := byteLength_take_add layout k
  have hle := h.byteLength_le
  exact ⟨fun g hg => h.groups g (List.mem_of_mem_drop hg), by omega⟩

/-- Only pads need no values. -/
theorem valueCount_eq_zero_iff (h : ∀ g ∈ layout, g.WellFormed) :
    layout.valueCount = 0 ↔ layout.all (·.code.isPad) = true := by
  induction layout with
  | nil => simp [valueCount]
  | cons g layout ih =>
    obtain ⟨hg, hrest⟩ := List.forall_mem_cons.mp h
    rw [valueCount, List.all_cons]
    cases hpad : g.code.isPad with
    | true => simp [Group.valueCount_of_isPad hpad, ih hrest]
    | false =>
      have hpos := hg.valueCount_pos hpad
      simp
      omega

/-! ## Bytes -/

variable {bs : Bytes}

theorem byteLength_take_covered_le (layout : Layout) (n : ℕ) :
    byteLength (layout.take (layout.covered Group.byteLength n)) ≤ n := by
  rw [byteLength_eq_sum]
  exact sum_take_covered_le layout n

theorem lt_covered_iff {i n : ℕ} (hi : i < layout.length) :
    i < layout.covered Group.byteLength n ↔ byteLength (layout.take (i + 1)) ≤ n := by
  rw [byteLength_eq_sum]
  exact le_covered_iff (k := i + 1) hi

/-- A scan of bytes gives the values of the groups that are covered. -/
theorem unpackScan_fst (layout : Layout) (bs : Bytes) :
    (layout.unpackScan bs).1 =
      (decodings (layout.take (layout.covered Group.byteLength bs.length)) bs).filterMap id := by
  obtain ⟨k, hk⟩ : ∃ k, k = layout.covered Group.byteLength bs.length := ⟨_, rfl⟩
  have hcovered := byteLength_take_covered_le layout bs.length
  rw [← hk] at hcovered ⊢
  have hsplit := unpackScan_append hcovered (layout.drop k)
  rw [List.take_append_drop] at hsplit
  rw [hsplit]
  cases hdrop : layout.drop k with
  | nil => simp [unpackScan]
  | cons g rest =>
    have hshort := lt_demand_of_drop_covered (hk ▸ hdrop)
    rw [← hk, ← byteLength_eq_sum, ← List.length_drop] at hshort
    rw [unpackScan, if_pos hshort, List.append_nil]

end BinaryRecord.Layout
