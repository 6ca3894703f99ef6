import Mathlib.Order.Bounds.Basic
import BinaryRecord.Proofs.Format.Bounds
import BinaryRecord.Proofs.Layout.Covered

/-!
# Loose operation

Loose operation is strict operation on the groups that are covered. Packing takes the
longest run from the front for which there are values and unpacking the longest run for
which there are bytes. What lies behind that run is neither looked at nor put out.
-/

namespace BinaryRecord

theorem Group.WellFormed.valueCount_le_byteLength {g : Group} (h : g.WellFormed) :
    g.valueCount ≤ g.byteLength :=
  Nat.le_trans (Nat.le_mul_of_pos_right _ h.unitLength_pos) g.valueCount_mul_unitLength_le

namespace Layout
variable {layout : Layout} {vs : List Value} {bs packed : Bytes}

/-- Each value takes up a byte at least. -/
theorem valueCount_le_byteLength (h : ∀ g ∈ layout, g.WellFormed) :
    layout.valueCount ≤ layout.byteLength := by
  induction layout with
  | nil => simp [valueCount]
  | cons g layout ih =>
    obtain ⟨hg, hrest⟩ := List.forall_mem_cons.mp h
    exact Nat.add_le_add hg.valueCount_le_byteLength (ih hrest)

theorem valueCount_eq_sum (layout : Layout) :
    layout.valueCount = (layout.map Group.valueCount).sum := by
  induction layout with
  | nil => rfl
  | cons g layout ih => rw [valueCount, ih, List.map_cons, List.sum_cons]

/-! ## The longest run -/

theorem isGreatest_covered (demand : Group → ℕ) (layout : Layout) (n : ℕ) :
    IsGreatest {k | k ≤ layout.length ∧ ((layout.take k).map demand).sum ≤ n}
      (layout.covered demand n) := by
  constructor
  · exact ⟨covered_le_length layout n, sum_take_covered_le layout n⟩
  · intro k hk
    exact (le_covered_iff hk.1).mpr hk.2

theorem isGreatest_covered_values (layout : Layout) (n : ℕ) :
    IsGreatest {k | k ≤ layout.length ∧ valueCount (layout.take k) ≤ n}
      (layout.covered Group.valueCount n) := by
  simpa only [valueCount_eq_sum] using isGreatest_covered Group.valueCount layout n

theorem isGreatest_covered_bytes (layout : Layout) (n : ℕ) :
    IsGreatest {k | k ≤ layout.length ∧ byteLength (layout.take k) ≤ n}
      (layout.covered Group.byteLength n) := by
  simpa only [byteLength_eq_sum] using isGreatest_covered Group.byteLength layout n

theorem covered_of_sum_le {demand : Group → ℕ} {n : ℕ} (h : (layout.map demand).sum ≤ n) :
    layout.covered demand n = layout.length := by
  have hge : layout.length ≤ layout.covered demand n :=
    (le_covered_iff (Nat.le_refl layout.length)).mpr (by simpa using h)
  exact Nat.le_antisymm (covered_le_length layout n) hge

/-! ## Packing -/

theorem valueCount_take_covered_le (layout : Layout) (n : ℕ) :
    valueCount (layout.take (layout.covered Group.valueCount n)) ≤ n :=
  (isGreatest_covered_values layout n).1.2

/-- The first group that the values do not cover is no pad. -/
theorem isPad_of_getElem?_covered {g : Group} {n : ℕ}
    (h : layout[layout.covered Group.valueCount n]? = some g) : g.code.isPad = false := by
  obtain ⟨hlt, rfl⟩ := List.getElem?_eq_some_iff.mp h
  have hshort := lt_demand_of_drop_covered (List.drop_eq_getElem_cons hlt)
  exact Group.isPad_of_valueCount_ne_zero (Nat.ne_zero_of_lt hshort)

/-- A scan of values ends where they no longer cover a group, and nothing comes out
from there on. -/
theorem packScan_drop_covered (layout : Layout) (vs : List Value) :
    ∃ stop, packScan (layout.drop (layout.covered Group.valueCount vs.length))
      (vs.drop (valueCount (layout.take (layout.covered Group.valueCount vs.length)))) =
        .ok ([], stop) := by
  cases hdrop : layout.drop (layout.covered Group.valueCount vs.length) with
  | nil => exact ⟨none, rfl⟩
  | cons g rest =>
    -- A group that takes no values would have been covered, so this one stops the scan.
    have hshort := lt_demand_of_drop_covered hdrop
    rw [← valueCount_eq_sum, ← List.length_drop] at hshort
    have hfirst : layout[layout.covered Group.valueCount vs.length]? = some g := by
      rw [← List.head?_drop, hdrop, List.head?_cons]
    have hpad := isPad_of_getElem?_covered hfirst
    rw [packScan, hpad, if_neg Bool.false_ne_true, if_pos hshort]
    exact ⟨_, rfl⟩

/-- Loose packing stores the groups that the values cover, strictly. -/
theorem pack_loose_eq_pack_strict_take (layout : Layout) (vs : List Value) :
    layout.pack .loose vs =
      pack (layout.take (layout.covered Group.valueCount vs.length)) .strict vs := by
  have hcovered := valueCount_take_covered_le layout vs.length
  obtain ⟨stop, hstop⟩ := packScan_drop_covered layout vs
  have hsplit := packScan_append hcovered (layout.drop (layout.covered Group.valueCount vs.length))
  rw [List.take_append_drop, hstop] at hsplit
  rw [pack_loose, hsplit, pack_strict_of_le hcovered]
  cases Except.all (encodings (layout.take (layout.covered Group.valueCount vs.length)) vs) <;>
    simp [bind, Except.bind, Except.map]

/-- Strict packing looks at no value behind the last slot. -/
theorem pack_strict_take (h : layout.valueCount ≤ vs.length) :
    layout.pack .strict (vs.take layout.valueCount) = layout.pack .strict vs := by
  have htake : layout.valueCount ≤ (vs.take layout.valueCount).length := by
    rw [List.length_take]
    omega
  rw [pack_strict_of_le h, pack_strict_of_le htake, encodings_take]

theorem length_of_pack_loose (hwf : layout.WellFormed) (h : layout.pack .loose vs = .ok packed) :
    packed.length = byteLength (layout.take (layout.covered Group.valueCount vs.length)) := by
  rw [pack_loose_eq_pack_strict_take] at h
  exact length_of_pack_strict (hwf.take _) h

/-- The groups that are not covered take up bytes exactly if values are lacking. -/
theorem byteLength_take_covered_lt_iff (hwf : layout.WellFormed) {n : ℕ} :
    byteLength (layout.take (layout.covered Group.valueCount n)) < layout.byteLength ↔
      n < layout.valueCount := by
  constructor
  · intro hshort
    by_contra hnot
    rw [Nat.not_lt, valueCount_eq_sum] at hnot
    rw [covered_of_sum_le hnot, List.take_length] at hshort
    exact Nat.lt_irrefl _ hshort
  · intro hlack
    have hcovered := valueCount_take_covered_le layout n
    have hvalues := valueCount_take_add layout (layout.covered Group.valueCount n)
    have hbytes := byteLength_take_add layout (layout.covered Group.valueCount n)
    have hbeyond :=
      valueCount_le_byteLength (hwf.drop (layout.covered Group.valueCount n)).groups
    omega

/-- What is packed in some mode is packed loosely. -/
theorem pack_loose_of_pack {mode : Mode} (h : layout.pack mode vs = .ok packed) :
    layout.pack .loose vs = .ok packed := by
  cases mode with
  | loose => exact h
  | strict => rw [← pack_strict_eq_pack_loose (pack_strict_eq_ok_iff.mp h).1, h]

/-- The output is short exactly if strict packing lacks values. -/
theorem length_lt_iff_of_pack {mode : Mode} (hwf : layout.WellFormed)
    (h : layout.pack mode vs = .ok packed) :
    packed.length < layout.byteLength ↔
      layout.pack .strict vs = .error (.tooFewValues layout.valueCount vs.length) := by
  have hloose := pack_loose_of_pack h
  rw [length_of_pack_loose hwf hloose, byteLength_take_covered_lt_iff hwf]
  by_cases hlack : vs.length < layout.valueCount
  · simp [pack_strict_of_lt hlack, hlack]
  · simp [pack_strict_eq_pack_loose (Nat.not_lt.mp hlack), hloose, hlack]

/-! ## Unpacking -/

/-- Strict unpacking is loose unpacking, refused if bytes are lacking. -/
theorem unpack_strict_eq_ite (layout : Layout) (bs : Bytes) :
    layout.unpack .strict bs =
      if layout.byteLength ≤ bs.length then layout.unpack .loose bs
      else .error (.tooFewBytes layout.byteLength bs.length) := by
  by_cases h : layout.byteLength ≤ bs.length
  · rw [if_pos h, unpack_loose]
    simp [unpack, unpackReporting, unpackScan_of_le h, Except.map]
  · have hstop : (layout.unpackScan bs).2.isSome := isSome_unpackScan_iff.mpr (Nat.not_le.mp h)
    rw [if_neg h]
    simp [unpack, unpackReporting, Mode.isStrict, hstop, Except.map]

/-- Loose unpacking reads the groups that the bytes cover, strictly. -/
theorem unpack_loose_eq_unpack_strict_take (layout : Layout) (bs : Bytes) :
    layout.unpack .loose bs =
      unpack (layout.take (layout.covered Group.byteLength bs.length)) .strict bs := by
  have hcovered := byteLength_take_covered_le layout bs.length
  rw [unpack_strict_eq_ite, if_pos hcovered, unpack_loose, unpack_loose, unpackScan_fst,
    unpackScan_of_le hcovered]

/-- A scan of bytes gives one value for each slot of the groups that are covered. -/
theorem length_unpackScan_fst (hwf : layout.WellFormed) (bs : Bytes) :
    (layout.unpackScan bs).1.length =
      valueCount (layout.take (layout.covered Group.byteLength bs.length)) := by
  have hcovered := byteLength_take_covered_le layout bs.length
  obtain ⟨ws, hws⟩ := exists_decodings_eq (hwf.take _).groups hcovered
  have hvalues : (layout.unpackScan bs).1 = ws := by
    rw [unpackScan_fst, hws]
    simp
  rw [hvalues, length_of_decodings_eq hcovered hws]

/-- What is unpacked in some mode is unpacked loosely. -/
theorem unpack_loose_of_unpack {mode : Mode} (h : layout.unpack mode bs = .ok vs) :
    layout.unpack .loose bs = .ok vs := by
  cases mode with
  | loose => exact h
  | strict =>
    rw [unpack_strict_eq_ite] at h
    split at h
    · exact h
    · cases h

/-- Unpacking gives a value for each byte at most. -/
theorem length_of_unpack_le {mode : Mode} (hwf : layout.WellFormed)
    (h : layout.unpack mode bs = .ok vs) : vs.length ≤ bs.length := by
  have hloose := unpack_loose_of_unpack h
  rw [unpack_loose] at hloose
  obtain rfl := Except.ok.inj hloose
  rw [length_unpackScan_fst hwf]
  exact (valueCount_le_byteLength (hwf.take _).groups).trans (byteLength_take_covered_le layout _)

/-- Unpacking gives a value for each slot at most. -/
theorem length_of_unpack_le_valueCount {mode : Mode} (hwf : layout.WellFormed)
    (h : layout.unpack mode bs = .ok vs) : vs.length ≤ layout.valueCount := by
  have hloose := unpack_loose_of_unpack h
  rw [unpack_loose] at hloose
  obtain rfl := Except.ok.inj hloose
  have hsplit := valueCount_take_add layout (layout.covered Group.byteLength bs.length)
  rw [length_unpackScan_fst hwf]
  omega

end Layout

/-- Loose unpacking always gives values: those of the longest run of groups for which there
are bytes, as strict unpacking of these groups gives them. On all groups strict unpacking
gives the same if the bytes suffice, and otherwise reports the totals. -/
theorem Format.unpack_loose_eq_strict (f : Format) (bs : Bytes) :
    ∃ (k : ℕ) (vs : List Value),
      IsGreatest {i | i ≤ f.layout.length ∧ Layout.byteLength (f.layout.take i) ≤ bs.length} k ∧
      vs.length = Layout.valueCount (f.layout.take k) ∧
      f.layout.unpack .loose bs = .ok vs ∧
      Layout.unpack (f.layout.take k) .strict bs = .ok vs ∧
      f.layout.unpack .strict bs =
        if f.layout.byteLength ≤ bs.length then .ok vs
        else .error (.tooFewBytes f.layout.byteLength bs.length) := by
  have hloose := Layout.unpack_loose f.layout bs
  refine ⟨f.layout.covered Group.byteLength bs.length, (f.layout.unpackScan bs).1, ?_, ?_,
    hloose, ?_, ?_⟩
  · exact Layout.isGreatest_covered_bytes f.layout bs.length
  · exact Layout.length_unpackScan_fst f.wellFormed bs
  · rw [← Layout.unpack_loose_eq_unpack_strict_take, hloose]
  · rw [Layout.unpack_strict_eq_ite, hloose]

end BinaryRecord
