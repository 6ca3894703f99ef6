import BinaryRecord.Proofs.Layout.WellFormed

/-!
# The units of a group

A group is stored unit by unit and read unit by unit. Its bytes are cut into pieces
of the length of a unit, and joining the pieces undoes the cut.

## Main definitions

* `Group.encodeUnit`, `Group.decodeUnit`: one unit on its own.
* `Group.join`: the bytes of a group with given units.
-/

namespace BinaryRecord

namespace Group
variable {g : Group}

/-- The bytes of one value. -/
def encodeUnit (g : Group) (v : Value) : Except Error Bytes :=
  g.code.encode g.unitLength g.order v

/-- The value of one unit. -/
def decodeUnit (g : Group) (unit : Bytes) : Option Value := g.code.decode g.order unit

theorem encode_eq_all (g : Group) (vs : List Value) :
    g.encode vs = (Except.all (vs.map g.encodeUnit)).map List.flatten := by
  rw [Except.all_map]
  rfl

theorem decode_eq_filterMap (g : Group) (bs : Bytes) :
    g.decode bs = (cut g.unitLength g.units bs).filterMap g.decodeUnit := rfl

theorem decodeUnit_of_isPad (h : g.code.isPad = true) (unit : Bytes) :
    g.decodeUnit unit = none := by
  rw [decodeUnit, Code.decode, Code.isPad_iff.mp h]

theorem WellFormed.length_encodeUnit (h : g.WellFormed) (hpad : g.code.isPad = false) {v : Value}
    {unit : Bytes} (hv : g.encodeUnit v = .ok unit) : unit.length = g.unitLength := by
  rw [Code.length_encode h.unitLength_pos hpad hv, h.unitLength_eq]
  by_cases hstring : g.code.isString = true
  · rw [if_pos hstring, if_pos hstring]
  · rw [if_neg hstring, if_neg hstring]

theorem WellFormed.isSome_decodeUnit (h : g.WellFormed) (hpad : g.code.isPad = false)
    {unit : Bytes} (hlen : unit.length = g.unitLength) : (g.decodeUnit unit).isSome := by
  apply Code.isSome_decode hpad
  intro hnil
  have hpos := h.unitLength_pos
  rw [← hlen, hnil] at hpos
  exact absurd hpos (Nat.lt_irrefl 0)

/-! ## Pieces of one length -/

theorem length_cut (length pieces : ℕ) (bs : Bytes) : (cut length pieces bs).length = pieces := by
  induction pieces generalizing bs with
  | zero => rfl
  | succ n ih => rw [cut, List.length_cons, ih]

/-- Only the bytes that the pieces cover are looked at. -/
theorem cut_take (length : ℕ) {pieces n : ℕ} (bs : Bytes) (h : pieces * length ≤ n) :
    cut length pieces (bs.take n) = cut length pieces bs := by
  induction pieces generalizing bs n with
  | zero => rfl
  | succ pieces ih =>
    rw [Nat.succ_mul] at h
    have hhead : (bs.take n).take length = bs.take length := by
      rw [List.take_take, Nat.min_eq_left (by omega)]
    have htail : cut length pieces ((bs.take n).drop length) =
        cut length pieces (bs.drop length) := by
      rw [List.drop_take, ih _ (by omega)]
    rw [cut, cut, hhead, htail]

theorem length_of_mem_cut {length pieces : ℕ} {bs unit : Bytes}
    (hlen : pieces * length ≤ bs.length) (h : unit ∈ cut length pieces bs) :
    unit.length = length := by
  induction pieces generalizing bs with
  | zero => cases h
  | succ pieces ih =>
    rw [Nat.succ_mul] at hlen
    rcases List.mem_cons.mp h with rfl | h
    · rw [List.length_take]
      omega
    · exact ih (by rw [List.length_drop]; omega) h

/-- Cutting what pieces of one length were joined to gives the pieces. -/
theorem cut_flatten_append {length : ℕ} {units : List Bytes}
    (h : ∀ unit ∈ units, unit.length = length) (rest : Bytes) :
    cut length units.length (units.flatten ++ rest) = units := by
  induction units with
  | nil => rfl
  | cons unit units ih =>
    obtain ⟨hunit, hunits⟩ := List.forall_mem_cons.mp h
    rw [List.length_cons, cut, List.flatten_cons, List.append_assoc, List.take_left' hunit,
      List.drop_left' hunit, ih hunits]

theorem length_flatten {length : ℕ} {units : List Bytes}
    (h : ∀ unit ∈ units, unit.length = length) : units.flatten.length = units.length * length := by
  induction units with
  | nil => simp
  | cons unit units ih =>
    obtain ⟨hunit, hunits⟩ := List.forall_mem_cons.mp h
    rw [List.flatten_cons, List.length_append, hunit, ih hunits, List.length_cons, Nat.succ_mul,
      Nat.add_comm]

/-! ## The bytes of a group -/

/-- The bytes of a group with the given units; a pad has none and is filled. -/
def join (g : Group) (units : List Bytes) : Bytes :=
  if g.code.isPad then fill g.byteLength else units.flatten

theorem join_of_isPad (h : g.code.isPad = true) (units : List Bytes) :
    g.join units = fill g.byteLength := if_pos h

theorem join_of_not_isPad (h : g.code.isPad = false) (units : List Bytes) :
    g.join units = units.flatten := by
  rw [join, h, if_neg Bool.false_ne_true]

theorem length_join {units : List Bytes} (hlen : units.length = g.valueCount)
    (hunits : ∀ unit ∈ units, unit.length = g.unitLength) :
    (g.join units).length = g.byteLength := by
  cases hpad : g.code.isPad with
  | true => rw [join_of_isPad hpad, length_fill]
  | false =>
    rw [join_of_not_isPad hpad, length_flatten hunits, hlen, valueCount_of_not_isPad hpad,
      units_mul_unitLength]

theorem valueCount_mul_unitLength_le (g : Group) : g.valueCount * g.unitLength ≤ g.byteLength := by
  cases hpad : g.code.isPad with
  | true => simp [valueCount_of_isPad hpad]
  | false => rw [valueCount_of_not_isPad hpad, units_mul_unitLength]

/-- Values of a group are stored in as many units of the group's length. -/
theorem WellFormed.length_of_all (h : g.WellFormed) {vs : List Value} {units : List Bytes}
    (hvs : vs.length ≤ g.valueCount) (hall : Except.all (vs.map g.encodeUnit) = .ok units) :
    units.length = vs.length ∧ ∀ unit ∈ units, unit.length = g.unitLength := by
  rw [Except.all_eq_ok_iff] at hall
  have hcount := congrArg List.length hall
  rw [List.length_map, List.length_map] at hcount
  refine ⟨hcount.symm, ?_⟩
  intro unit hunit
  have hmem : Except.ok unit ∈ vs.map g.encodeUnit := by
    rw [hall]
    exact List.mem_map_of_mem hunit
  obtain ⟨v, -, hv⟩ := List.mem_map.mp hmem
  cases hpad : g.code.isPad with
  | false => exact h.length_encodeUnit hpad hv
  | true =>
    rw [valueCount_of_isPad hpad, hcount, Nat.le_zero] at hvs
    rw [List.length_eq_zero_iff.mp hvs] at hunit
    cases hunit

/-- The units of a group are found again at the start of its bytes. -/
theorem cut_join_append {units : List Bytes} (hlen : units.length = g.valueCount)
    (hunits : ∀ unit ∈ units, unit.length = g.unitLength) (rest : Bytes) :
    cut g.unitLength g.valueCount (g.join units ++ rest) = units := by
  cases hpad : g.code.isPad with
  | true =>
    have hnil : units = [] := by
      rw [valueCount_of_isPad hpad] at hlen
      exact List.length_eq_zero_iff.mp hlen
    rw [hnil, valueCount_of_isPad hpad]
    rfl
  | false => rw [join_of_not_isPad hpad, ← hlen, cut_flatten_append hunits]

/-- The values of a group are those of its units, one by one. -/
theorem decode_take_eq_filterMap (g : Group) (bs : Bytes) :
    g.decode (bs.take g.byteLength) =
      (cut g.unitLength g.valueCount bs).filterMap g.decodeUnit := by
  rw [decode_eq_filterMap]
  cases hpad : g.code.isPad with
  | true =>
    rw [valueCount_of_isPad hpad]
    exact List.filterMap_eq_nil_iff.mpr fun unit _ => decodeUnit_of_isPad hpad unit
  | false =>
    rw [valueCount_of_not_isPad hpad, cut_take _ _ g.units_mul_unitLength.le]

end Group
end BinaryRecord
