import Mathlib.Order.CompletePartialOrder
import Mathlib.Order.Interval.Set.Disjoint
import BinaryRecord.Proofs.Layout.Buffer

/-!
# Records in one buffer

Records that take up disjoint parts of a buffer are independent: in whatever order they are
packed, each call gives the same result and the buffer holds the same bytes in the end. That is
told byte by byte, by a description of the buffer in which the order does not occur.

## Main definitions

* `Record`, `Record.writeAll`: calls that pack into one buffer, and a run of them.
* `Record.span`: the offsets that a record takes up.
* `Record.Held`: the buffer holds the records and is otherwise as before.
-/

namespace BinaryRecord

/-- What one call packs into a buffer, and where. -/
structure Record where
  /-- The format of the record. -/
  format : Format
  /-- The mode in which it is packed. -/
  mode : Mode
  /-- Where it starts in the buffer. -/
  offset : ℕ
  /-- The values to be packed. -/
  values : List Value

namespace Record
variable {r : Record} {records order : List Record} {buffer after after' : Bytes}

/-- Packs the record into a buffer. -/
def write (r : Record) (buffer : Bytes) : Except Error ℕ × Bytes :=
  r.format.layout.packAt r.mode r.offset r.values buffer

/-- Packs records into a buffer, one after the other. -/
def writeAll : List Record → Bytes → List (Except Error ℕ) × Bytes
  | [], buffer => ([], buffer)
  | r :: records, buffer =>
    let (result, buffer) := r.write buffer
    let (results, buffer) := writeAll records buffer
    (result :: results, buffer)

/-- The record can be packed into a buffer of some length. -/
def Succeeds (r : Record) (length : ℕ) : Prop :=
  ∃ (buffer : Bytes) (written : ℕ), buffer.length = length ∧ (r.write buffer).1 = .ok written

/-- The bytes of the record; none if it cannot be packed. -/
def packed (r : Record) : Bytes := (r.format.layout.pack r.mode r.values).toOption.getD []

/-- The offsets that the bytes of the record take up. -/
def span (r : Record) : Set ℕ := Set.Ico r.offset (r.offset + r.packed.length)

/-- What a call does depends on the length of the buffer, not on its content. -/
theorem Succeeds.write_eq (h : r.Succeeds buffer.length) :
    r.format.layout.pack r.mode r.values = .ok r.packed ∧
      r.offset + r.packed.length ≤ buffer.length ∧
      r.write buffer = (.ok r.packed.length, Layout.overwrite buffer r.offset r.packed) := by
  obtain ⟨other, written, hlength, hwrite⟩ := h
  obtain ⟨packed, hpack, hroom, -⟩ :=
    Layout.packAt_eq_ok_iff.mp (Prod.ext hwrite rfl : r.write other = (.ok written, _))
  have hpacked : r.packed = packed := by
    rw [Record.packed, hpack]
    rfl
  rw [hpacked, ← hlength]
  refine ⟨hpack, hroom, ?_⟩
  exact Layout.packAt_eq_ok_iff.mpr ⟨packed, hpack, hlength ▸ hroom, rfl, rfl⟩

/-- A buffer holds the records and is otherwise as it was before. -/
structure Held (records : List Record) (buffer after : Bytes) : Prop where
  length_eq : after.length = buffer.length
  inside : ∀ r ∈ records, ∀ p ∈ r.span, after[p]? = r.packed[p - r.offset]?
  outside : ∀ p, (∀ r ∈ records, p ∉ r.span) → after[p]? = buffer[p]?

/-- The order of the records makes no difference to what the buffer holds. -/
theorem Held.perm (h : Held order buffer after) (hperm : order.Perm records) :
    Held records buffer after := by
  refine ⟨h.length_eq, ?_, ?_⟩
  · intro r hr
    exact h.inside r (hperm.mem_iff.mpr hr)
  · intro p hp
    refine h.outside p ?_
    intro r hr
    exact hp r (hperm.mem_iff.mp hr)

/-- The buffer before and the records determine the buffer afterwards. -/
theorem Held.unique (h : Held records buffer after) (h' : Held records buffer after') :
    after = after' := by
  apply List.ext_getElem?
  intro p
  by_cases hp : ∃ r ∈ records, p ∈ r.span
  · obtain ⟨r, hr, hspan⟩ := hp
    rw [h.inside r hr p hspan, h'.inside r hr p hspan]
  · have hfree : ∀ r ∈ records, p ∉ r.span := by
      intro r hr hspan
      exact hp ⟨r, hr, hspan⟩
    rw [h.outside p hfree, h'.outside p hfree]

theorem held_overwrite (h : r.Succeeds buffer.length) :
    Held [r] buffer (Layout.overwrite buffer r.offset r.packed) := by
  obtain ⟨-, hroom, -⟩ := h.write_eq
  refine ⟨Layout.length_overwrite hroom, ?_, ?_⟩
  · simp only [List.forall_mem_singleton]
    intro p hp
    exact Layout.getElem?_overwrite_of_mem hroom hp
  · simp only [List.forall_mem_singleton]
    intro p hp
    exact Layout.getElem?_overwrite_of_notMem hroom hp

/-- Further records leave those before them as they are, for no offset is in two spans. -/
theorem Held.append (h : Held [r] buffer after) (h' : Held records after after')
    (hdisjoint : ∀ s ∈ records, Disjoint r.span s.span) : Held (r :: records) buffer after' := by
  refine ⟨h'.length_eq.trans h.length_eq, ?_, ?_⟩
  · rintro s hs p hp
    rcases List.mem_cons.mp hs with rfl | hs
    · have hfree : ∀ t ∈ records, p ∉ t.span := by
        intro t ht
        exact Set.disjoint_left.mp (hdisjoint t ht) hp
      rw [h'.outside p hfree, h.inside s (List.mem_singleton_self s) p hp]
    · exact h'.inside s hs p hp
  · intro p hp
    obtain ⟨hr, hrecords⟩ := List.forall_mem_cons.mp hp
    rw [h'.outside p hrecords, h.outside p (by simpa using hr)]

/-- The bytes of a record stand at its offset. -/
theorem Held.slice_eq (h : Held records buffer after) (hr : r ∈ records)
    (hok : r.Succeeds buffer.length) :
    (after.drop r.offset).take r.packed.length = r.packed := by
  obtain ⟨-, hroom, -⟩ := hok.write_eq
  have hlength := h.length_eq
  apply List.ext_getElem?
  intro i
  by_cases hi : i < r.packed.length
  · have hspan : r.offset + i ∈ r.span := ⟨by omega, by omega⟩
    rw [List.getElem?_take_of_lt hi, List.getElem?_drop, h.inside r hr _ hspan,
      Nat.add_sub_cancel_left]
  · rw [List.getElem?_eq_none (by simp; omega), List.getElem?_eq_none (by omega)]

/-- Records with disjoint spans are all there in the end. -/
theorem writeAll_of_pairwise (hok : ∀ r ∈ records, r.Succeeds buffer.length)
    (hdisjoint : records.Pairwise fun r s => Disjoint r.span s.span) :
    (writeAll records buffer).1 = records.map (fun r => .ok r.packed.length) ∧
      Held records buffer (writeAll records buffer).2 := by
  induction records generalizing buffer with
  | nil => exact ⟨rfl, rfl, by simp, by simp [writeAll]⟩
  | cons r records ih =>
    obtain ⟨hr, hrecords⟩ := List.forall_mem_cons.mp hok
    obtain ⟨hfirst, hrest⟩ := List.pairwise_cons.mp hdisjoint
    obtain ⟨-, -, hwrite⟩ := hr.write_eq
    have hheld := held_overwrite hr
    rw [← hheld.length_eq] at hrecords
    obtain ⟨hresults, hbehind⟩ := ih hrecords hrest
    simp only [writeAll, hwrite, List.map_cons]
    exact ⟨by rw [hresults], hheld.append hbehind hfirst⟩

/-- Records with disjoint spans are independent. Packed in any order they give the same results
and the same buffer, which is as before outside the spans. From where a record was packed
strictly, the canonical forms of its values are unpacked. -/
theorem writeAll_perm_of_disjoint (hok : ∀ r ∈ records, r.Succeeds buffer.length)
    (hdisjoint : records.Pairwise fun r s => Disjoint r.span s.span) :
    ∃ after : Bytes, after.length = buffer.length ∧
      (∀ order : List Record, order.Perm records →
        writeAll order buffer = (order.map fun r => .ok r.packed.length, after)) ∧
      (∀ p, (∀ r ∈ records, p ∉ r.span) → after[p]? = buffer[p]?) ∧
      ∀ r ∈ records, r.mode = .strict →
        r.format.layout.unpackAt .strict r.offset after =
          .ok (r.format.layout.canonical r.values) := by
  obtain ⟨-, hheld⟩ := writeAll_of_pairwise hok hdisjoint
  refine ⟨(writeAll records buffer).2, hheld.length_eq, ?_, hheld.outside, ?_⟩
  · intro order hperm
    have hok' : ∀ r ∈ order, r.Succeeds buffer.length := by
      intro r hr
      exact hok r (hperm.mem_iff.mp hr)
    have hdisjoint' : order.Pairwise fun r s => Disjoint r.span s.span :=
      (hperm.pairwise_iff fun h => h.symm).mpr hdisjoint
    obtain ⟨hresults, hheld'⟩ := writeAll_of_pairwise hok' hdisjoint'
    exact Prod.ext hresults ((hheld'.perm hperm).unique hheld)
  · intro r hr hmode
    obtain ⟨hpack, -, -⟩ := (hok r hr).write_eq
    rw [hmode] at hpack
    exact Layout.unpackAt_of_pack r.format.wellFormed hpack (hheld.slice_eq hr (hok r hr))

/-- A record packed strictly and the front of one packed loosely stand side by side. -/
theorem writeAll_perm_of_disjoint_loose :
    ∃ (r s : Record) (after : Bytes), r.format.text = ">H" ∧ s.format.text = "<BH" ∧
      r.mode = .strict ∧ s.mode = .loose ∧ r.Succeeds 5 ∧ s.Succeeds 5 ∧
      r.span = Set.Ico 1 3 ∧ s.span = Set.Ico 4 5 ∧
      writeAll [r, s] [9, 9, 9, 9, 9] = ([.ok 2, .ok 1], after) ∧
      writeAll [s, r] [9, 9, 9, 9, 9] = ([.ok 1, .ok 2], after) ∧
      after[3]? = some 9 ∧ r.format.layout.unpackAt .strict 1 after = .ok [.uint 258] := by
  have hparse : Layout.parse ">H" = .ok [⟨1, .uint16, .big, 2⟩] := by decide
  have hparse' : Layout.parse "<BH" =
      .ok [⟨1, .uint8, .little, 1⟩, ⟨1, .uint16, .little, 2⟩] := by decide
  obtain ⟨r, hr⟩ : ∃ r : Record, r = ⟨⟨">H", _, hparse⟩, .strict, 1, [.uint 258]⟩ := ⟨_, rfl⟩
  obtain ⟨s, hs⟩ : ∃ s : Record, s = ⟨⟨"<BH", _, hparse'⟩, .loose, 4, [.uint 7]⟩ := ⟨_, rfl⟩
  have hlengths : r.packed.length = 2 ∧ s.packed.length = 1 := by
    rw [hr, hs]
    exact ⟨rfl, rfl⟩
  have hspans : r.span = Set.Ico 1 3 ∧ s.span = Set.Ico 4 5 := by
    rw [span, span, hlengths.1, hlengths.2, hr, hs]
    exact ⟨rfl, rfl⟩
  have hok : ∀ t ∈ [r, s], t.Succeeds 5 := by
    rw [List.forall_mem_cons, List.forall_mem_singleton, hr, hs]
    exact ⟨⟨[9, 9, 9, 9, 9], 2, rfl, rfl⟩, ⟨[9, 9, 9, 9, 9], 1, rfl, rfl⟩⟩
  have hdisjoint : [r, s].Pairwise fun r s => Disjoint r.span s.span := by
    rw [List.pairwise_pair, hspans.1, hspans.2]
    exact Set.Ico_disjoint_Ico.mpr (by decide)
  obtain ⟨after, -, hwrites, houtside, hback⟩ :=
    @writeAll_perm_of_disjoint [r, s] [9, 9, 9, 9, 9] hok hdisjoint
  have hfirst := hwrites [r, s] (List.Perm.refl _)
  have hsecond := hwrites [s, r] (List.Perm.swap r s [])
  simp only [List.map_cons, List.map_nil, hlengths] at hfirst hsecond
  have hbetween := houtside 3 (by simp [hspans])
  have hread : r.format.layout.unpackAt .strict 1 after = .ok [.uint 258] := by
    have hcanonical := hback r (by simp) (by rw [hr])
    rw [hr] at hcanonical ⊢
    exact hcanonical
  exact ⟨r, s, after, by rw [hr], by rw [hs], by rw [hr], by rw [hs], hok r (by simp),
    hok s (by simp), hspans.1, hspans.2, hfirst, hsecond, hbetween, hread⟩

end Record
end BinaryRecord
