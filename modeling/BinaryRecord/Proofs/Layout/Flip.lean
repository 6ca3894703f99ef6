import BinaryRecord.Proofs.Format.Bounds
import BinaryRecord.Proofs.Layout.Scans

/-!
# The opposite byte order

A byte order says how the bytes of a number lie within its unit, and nothing else. Under the
opposite orders the same values are packed to the same bytes but for the numbers, whose units are
reversed, and reversed units are unpacked to the same values. Pads, strings and the bytes behind
the groups that are covered stay as they are.

## Main definitions

* `Layout.flip`: the layout under the opposite orders.
* `Layout.reverseUnits`: bytes with the units of all numbers reversed.
-/

namespace BinaryRecord

namespace Code
variable {c : Code}

/-- Do the bytes of a unit lie in an order? Those of pads and strings do not. -/
def isOrdered (c : Code) : Bool := !(c.isPad || c.isString)

/-- A unit in the opposite order. -/
def reverseUnit (c : Code) (unit : Bytes) : Bytes := if c.isOrdered then unit.reverse else unit

theorem reverseUnit_of_isOrdered (h : c.isOrdered = true) : c.reverseUnit = List.reverse :=
  funext fun _ => if_pos h

theorem reverseUnit_of_not_isOrdered (h : c.isOrdered = false) : c.reverseUnit = id :=
  funext fun _ => if_neg (by simp [h])

theorem isOrdered_of_kind (h : c.kind = .signed ∨ c.kind = .unsigned ∨ c.kind = .float) :
    c.isOrdered = true := by
  cases c <;> simp_all [kind, entry] <;> rfl

theorem not_isOrdered_of_kind
    (h : c.kind = .pad ∨ c.kind = .fixedString ∨ c.kind = .pascalString) :
    c.isOrdered = false := by
  cases c <;> simp_all [kind, entry] <;> rfl

/-- Under the opposite order a value is stored in the reversed unit, or refused alike. -/
theorem encode_flip (c : Code) (unitLength : ℕ) (o : ByteOrder) (v : Value) :
    c.encode unitLength o.flip v = (c.encode unitLength o v).map c.reverseUnit := by
  unfold encode
  cases hkind : c.kind with
  | signed | unsigned =>
    rw [reverseUnit_of_isOrdered (isOrdered_of_kind (by simp [hkind]))]
    cases c.integerWord v <;> simp [Except.map, Word.toBytes_flip]
  | float =>
    rw [reverseUnit_of_isOrdered (isOrdered_of_kind (by simp [hkind]))]
    cases c.floatWord v <;> simp [Except.map, Word.toBytes_flip]
  | pad =>
    rw [reverseUnit_of_not_isOrdered (not_isOrdered_of_kind (by simp [hkind]))]
    rfl
  | fixedString | pascalString =>
    rw [reverseUnit_of_not_isOrdered (not_isOrdered_of_kind (by simp [hkind]))]
    cases c.stringData v <;> rfl

/-- Under the opposite order the reversed unit is read as the same value. -/
theorem decode_flip (c : Code) (o : ByteOrder) (unit : Bytes) :
    c.decode o.flip (c.reverseUnit unit) = c.decode o unit := by
  unfold decode
  cases hkind : c.kind with
  | signed | unsigned | float =>
    rw [reverseUnit_of_isOrdered (isOrdered_of_kind (by simp [hkind]))]
    simp [Word.ofBytes_reverse_flip]
  | pad | fixedString | pascalString =>
    rw [reverseUnit_of_not_isOrdered (not_isOrdered_of_kind (by simp [hkind])), id]

end Code

namespace Group
variable {g : Group} {bs : Bytes} {units : List Bytes}

/-- The group under the opposite order. -/
def flip (g : Group) : Group := { g with order := g.order.flip }

@[simp] theorem byteLength_flip (g : Group) : g.flip.byteLength = g.byteLength := rfl

@[simp] theorem valueCount_flip (g : Group) : g.flip.valueCount = g.valueCount := rfl

/-- The bytes of the group with each unit reversed; those of pads and strings stay. -/
def reverseUnits (g : Group) (bs : Bytes) : Bytes :=
  if g.code.isOrdered then ((cut g.unitLength g.units bs).map List.reverse).flatten else bs

theorem reverseUnits_of_isOrdered (h : g.code.isOrdered = true) (bs : Bytes) :
    g.reverseUnits bs = ((cut g.unitLength g.units bs).map List.reverse).flatten := if_pos h

theorem reverseUnits_of_not_isOrdered (h : g.code.isOrdered = false) (bs : Bytes) :
    g.reverseUnits bs = bs := if_neg (by simp [h])

theorem encodeUnit_flip (g : Group) (v : Value) :
    g.flip.encodeUnit v = (g.encodeUnit v).map g.code.reverseUnit :=
  Code.encode_flip g.code g.unitLength g.order v

theorem decodeUnit_flip (g : Group) (unit : Bytes) :
    g.flip.decodeUnit (g.code.reverseUnit unit) = g.decodeUnit unit :=
  Code.decode_flip g.code g.order unit

/-- The bytes of a group with reversed units are those of the units, each reversed. -/
theorem reverseUnits_join (hlen : units.length = g.valueCount)
    (hunits : ∀ unit ∈ units, unit.length = g.unitLength) :
    g.reverseUnits (g.join units) = g.flip.join (units.map g.code.reverseUnit) := by
  cases hordered : g.code.isOrdered with
  | true =>
    have hpad : g.code.isPad = false := by
      simp_all [Code.isOrdered]
    have hcut := cut_flatten_append hunits []
    rw [List.append_nil, hlen, valueCount_of_not_isPad hpad] at hcut
    rw [reverseUnits_of_isOrdered hordered, Code.reverseUnit_of_isOrdered hordered,
      join_of_not_isPad hpad, hcut, join_of_not_isPad (g := g.flip) hpad]
  | false =>
    rw [reverseUnits_of_not_isOrdered hordered, Code.reverseUnit_of_not_isOrdered hordered,
      List.map_id]
    rfl

theorem length_of_mem_reverse_cut (hlen : bs.length = g.byteLength) {unit : Bytes}
    (h : unit ∈ (cut g.unitLength g.units bs).map List.reverse) : unit.length = g.unitLength := by
  obtain ⟨unit, hunit, rfl⟩ := List.mem_map.mp h
  rw [List.length_reverse]
  exact length_of_mem_cut (by rw [hlen, units_mul_unitLength]) hunit

theorem length_reverseUnits (hlen : bs.length = g.byteLength) :
    (g.reverseUnits bs).length = g.byteLength := by
  cases hordered : g.code.isOrdered with
  | true =>
    rw [reverseUnits_of_isOrdered hordered,
      length_flatten fun _ => length_of_mem_reverse_cut hlen, List.length_map, length_cut,
      units_mul_unitLength]
  | false => rw [reverseUnits_of_not_isOrdered hordered, hlen]

/-- Reversed units are read as the same values. -/
theorem decode_flip (hlen : bs.length = g.byteLength) :
    g.flip.decode (g.reverseUnits bs) = g.decode bs := by
  have hread := g.decodeUnit_flip
  rw [decode_eq_filterMap, decode_eq_filterMap]
  change (cut g.unitLength g.units (g.reverseUnits bs)).filterMap g.flip.decodeUnit = _
  cases hordered : g.code.isOrdered with
  | true =>
    have hback := cut_flatten_append (fun _ => length_of_mem_reverse_cut hlen) []
    rw [List.append_nil, List.length_map, length_cut] at hback
    rw [Code.reverseUnit_of_isOrdered hordered] at hread
    rw [reverseUnits_of_isOrdered hordered, hback, List.filterMap_map]
    exact List.filterMap_congr fun unit _ => hread unit
  | false =>
    rw [Code.reverseUnit_of_not_isOrdered hordered] at hread
    rw [reverseUnits_of_not_isOrdered hordered]
    exact List.filterMap_congr fun unit _ => hread unit

end Group

namespace Layout
variable {g : Group} {layout : Layout} {vs : List Value} {bs : Bytes}

/-- The layout under the opposite orders. -/
def flip (layout : Layout) : Layout := layout.map Group.flip

theorem flip_cons (g : Group) (layout : Layout) : flip (g :: layout) = g.flip :: flip layout := rfl

@[simp] theorem byteLength_flip (layout : Layout) :
    (flip layout).byteLength = layout.byteLength := by
  induction layout with
  | nil => rfl
  | cons g layout ih => exact congrArg (g.byteLength + ·) ih

@[simp] theorem valueCount_flip (layout : Layout) :
    (flip layout).valueCount = layout.valueCount := by
  induction layout with
  | nil => rfl
  | cons g layout ih => exact congrArg (g.valueCount + ·) ih

/-- Bytes with the units of all numbers reversed, up to the first group that they do not cover. -/
def reverseUnits : Layout → Bytes → Bytes
  | [], bs => bs
  | g :: layout, bs =>
    if bs.length < g.byteLength then bs
    else g.reverseUnits (bs.take g.byteLength) ++ reverseUnits layout (bs.drop g.byteLength)

theorem reverseUnits_of_lt (h : bs.length < g.byteLength) :
    reverseUnits (g :: layout) bs = bs := if_pos h

/-- The units of the first group are reversed, and so are those behind it. -/
theorem reverseUnits_append {first : Bytes} (h : first.length = g.byteLength) (rest : Bytes) :
    reverseUnits (g :: layout) (first ++ rest) =
      g.reverseUnits first ++ layout.reverseUnits rest := by
  rw [reverseUnits, if_neg (by simp [h]), List.take_left' h, List.drop_left' h]

@[simp] theorem length_reverseUnits (layout : Layout) (bs : Bytes) :
    (layout.reverseUnits bs).length = bs.length := by
  induction layout generalizing bs with
  | nil => rfl
  | cons g layout ih =>
    by_cases h : bs.length < g.byteLength
    · rw [reverseUnits_of_lt h]
    · have hlen := List.length_take_of_le (Nat.le_of_not_lt h)
      rw [reverseUnits, if_neg h, List.length_append, Group.length_reverseUnits hlen, ih,
        List.length_drop]
      omega

/-- A group that the values cover is packed to reversed units. -/
theorem packScan_flip_cons (hg : g.WellFormed) (h : g.valueCount ≤ vs.length)
    (hrest : (flip layout).packScan (vs.drop g.valueCount) =
      (layout.packScan (vs.drop g.valueCount)).map fun p => (layout.reverseUnits p.1, p.2)) :
    packScan (g.flip :: flip layout) vs =
      (packScan (g :: layout) vs).map fun p => (reverseUnits (g :: layout) p.1, p.2) := by
  have hflip : Except.all ((vs.take g.valueCount).map g.flip.encodeUnit) =
      (Except.all ((vs.take g.valueCount).map g.encodeUnit)).map
        (List.map g.code.reverseUnit) := by
    rw [← Except.all_map_map, List.map_map]
    exact congrArg Except.all (List.map_congr_left fun v _ => g.encodeUnit_flip v)
  rw [packScan_cons h, packScan_cons (g := g.flip) h]
  simp only [Group.valueCount_flip]
  rw [hflip, hrest]
  cases hall : Except.all ((vs.take g.valueCount).map g.encodeUnit) with
  | error e => rfl
  | ok units =>
    have htake := List.length_take_of_le h
    obtain ⟨hcount, hunits⟩ := hg.length_of_all htake.le hall
    rw [htake] at hcount
    cases layout.packScan (vs.drop g.valueCount) with
    | error e => rfl
    | ok p =>
      simp [bind, Except.bind, Except.map, reverseUnits_append (Group.length_join hcount hunits),
        Group.reverseUnits_join hcount hunits]

/-- Values are packed under the opposite orders to reversed units, or refused alike. -/
theorem packScan_flip (hwf : ∀ g ∈ layout, g.WellFormed) (vs : List Value) :
    (flip layout).packScan vs =
      (layout.packScan vs).map fun p => (layout.reverseUnits p.1, p.2) := by
  induction layout generalizing vs with
  | nil => rfl
  | cons g layout ih =>
    obtain ⟨hg, hgroups⟩ := List.forall_mem_cons.mp hwf
    rw [flip_cons]
    by_cases h : g.valueCount ≤ vs.length
    · exact packScan_flip_cons hg h (ih hgroups _)
    · have hlt := Nat.not_le.mp h
      have hnil : reverseUnits (g :: layout) [] = [] := reverseUnits_of_lt hg.byteLength_pos
      rw [packScan_of_lt hlt, packScan_of_lt (g := g.flip) hlt, Except.map, hnil]
      rfl

/-- Reversed units are unpacked under the opposite orders to the same values. -/
theorem unpackScan_flip (layout : Layout) (bs : Bytes) :
    (flip layout).unpackScan (layout.reverseUnits bs) = layout.unpackScan bs := by
  induction layout generalizing bs with
  | nil => rfl
  | cons g layout ih =>
    rw [flip_cons]
    by_cases h : bs.length < g.byteLength
    · rw [reverseUnits_of_lt h, unpackScan_of_lt h, unpackScan_of_lt (g := g.flip) h]
      rfl
    · have hlen := List.length_take_of_le (Nat.le_of_not_lt h)
      have hturned := Group.length_reverseUnits hlen
      rw [reverseUnits, if_neg h, unpackScan, unpackScan, if_neg h, if_neg (by simp [hturned])]
      simp only [Group.byteLength_flip, List.take_left' hturned, List.drop_left' hturned,
        Group.decode_flip hlen, ih]

theorem packReporting_flip (hwf : layout.WellFormed) (mode : Mode) (vs : List Value) :
    (flip layout).packReporting mode vs =
      (layout.packReporting mode vs).map fun p => (layout.reverseUnits p.1, p.2) := by
  unfold packReporting
  rw [valueCount_flip, packScan_flip hwf.groups]
  split <;> rfl

theorem unpackReporting_flip (layout : Layout) (mode : Mode) (bs : Bytes) :
    (flip layout).unpackReporting mode (layout.reverseUnits bs) =
      layout.unpackReporting mode bs := by
  unfold unpackReporting
  rw [unpackScan_flip, byteLength_flip, length_reverseUnits]

end Layout

/-- Under the opposite orders values are packed to the same bytes with the units of the numbers
reversed, or refused with the same error, and bytes with these units reversed are unpacked to the
same values, or refused with the same error. -/
theorem Format.pack_unpack_flip (f : Format) :
    (∀ (mode : Mode) (vs : List Value),
      f.layout.flip.pack mode vs = (f.layout.pack mode vs).map f.layout.reverseUnits) ∧
    ∀ (mode : Mode) (bs : Bytes),
      f.layout.flip.unpack mode (f.layout.reverseUnits bs) = f.layout.unpack mode bs := by
  refine ⟨?_, ?_⟩
  · intro mode vs
    rw [Layout.pack, Layout.packReporting_flip f.wellFormed, Layout.pack]
    cases f.layout.packReporting mode vs <;> rfl
  · intro mode bs
    rw [Layout.unpack, Layout.unpackReporting_flip, Layout.unpack]

example : Layout.reverseUnits
    [⟨2, .uint16, .little, 2⟩, ⟨2, .fixedString, .little, 1⟩, ⟨1, .int32, .big, 4⟩]
    [1, 2, 3, 4, 5, 6, 7, 8] = [2, 1, 4, 3, 5, 6, 7, 8] := by decide

end BinaryRecord
