import BinaryRecord.Proofs.Code.Integer
import BinaryRecord.Proofs.Json.Items
import BinaryRecord.Proofs.Json.Number
import BinaryRecord.Proofs.Layout.Errors

/-!
# Which items are read

Each kind of code takes one sort of JSON items, and the value that is read of an item is the same
number or the same bytes. Such a value is never refused for its class when it is packed under the
code that it was read for.

## Main definitions

* `Json.Fits`: the items that a slot of some kind takes.
* `Json.Denotes`: an item and the value that it stands for in a slot of some kind.
* `Layout.ItemFits`: the item at a place has no slot or fits it.
-/

namespace BinaryRecord

namespace Json

/-- A slot of a floating-point number takes any number, one of an integer a number that is held
as an integer, and one of a string a text or an array of integers that each fit a byte. -/
def Fits (item : Json) : Kind → Prop
  | .pad => False
  | .float => ∃ n, item = .number n
  | .signed | .unsigned => ∃ i, item.integer? = some i
  | .fixedString | .pascalString => (∃ s, item = .string s) ∨
      ∃ items, item = .array items ∧ ∀ b ∈ items, ∃ i, b.integer? = some i ∧ 0 ≤ i ∧ i ≤ 255

/-- An item that spells a byte string: as text in UTF-8, or as an array byte by byte. -/
inductive Spells : Json → Bytes → Prop
  | text (s : String) : Spells (.string s) (Utf8.encode s)
  | bytes {items : List Json} {data : Bytes}
      (h : items.map integer? = data.map fun b => some (b.toNat : ℤ)) : Spells (.array items) data

/-- A value is what an item stands for in a slot: the same integer, the number that the item's
number is rounded to, or the bytes that the item spells. -/
def Denotes (item : Json) (v : Value) : Kind → Prop
  | .pad => False
  | .float => ∃ n x, item = .number n ∧ v = .float x ∧ n.RoundsTo x
  | .signed | .unsigned => ∃ i, item.integer? = some i ∧ v.integer? = some i
  | .fixedString | .pascalString => ∃ data, v = .bytes data ∧ item.Spells data

end Json

namespace Code
variable {c : Code} {item : Json} {v : Value}

/-! ## One item -/

theorem readBytes_eq_ok_iff {items : List Json} {data : Bytes} : readBytes items = .ok data ↔
    items.map Json.integer? = data.map fun b => some (b.toNat : ℤ) := by
  rw [readBytes, ← Except.all_map, Except.all_eq_ok_iff, List.ext_getElem?_iff,
    List.ext_getElem?_iff]
  refine forall_congr' fun j => ?_
  simp only [List.getElem?_map]
  cases items[j]? with
  | none => cases data[j]? <;> simp
  | some item =>
    cases data[j]? with
    | none => simp
    | some b =>
      simp only [Option.map_some, Option.some.injEq]
      rw [← Json.byte?_eq_some_iff]
      cases item.byte? <;> simp

theorem readItem_string_iff (hkind : c.kind = .fixedString ∨ c.kind = .pascalString) :
    c.readItem item = .ok v ↔ ∃ data, v = .bytes data ∧ item.Spells data := by
  constructor
  · intro h
    cases item with
    | string s =>
      rw [readItem_string hkind] at h
      obtain rfl := Except.ok.inj h
      exact ⟨_, rfl, .text s⟩
    | array items =>
      rw [readItem_array hkind] at h
      obtain ⟨data, hdata, rfl⟩ := Except.map_eq_ok_iff.mp h
      exact ⟨data, rfl, .bytes (readBytes_eq_ok_iff.mp hdata)⟩
    | _ => rcases hkind with hkind | hkind <;> simp [readItem, hkind] at h
  · rintro ⟨data, rfl, hspells⟩
    cases hspells with
    | text s => exact readItem_string hkind s
    | bytes hitems =>
      rw [readItem_array hkind, readBytes_eq_ok_iff.mpr hitems]
      rfl

end Code

namespace Json

/-- An array spells some byte string exactly if each of its items is an integer that fits. -/
theorem exists_bytes_iff {items : List Json} :
    (∃ data : Bytes, items.map integer? = data.map fun b => some (b.toNat : ℤ)) ↔
      ∀ b ∈ items, ∃ i, b.integer? = some i ∧ 0 ≤ i ∧ i ≤ 255 := by
  induction items with
  | nil => simp
  | cons item items ih =>
    rw [List.forall_mem_cons, ← ih]
    constructor
    · rintro ⟨data, h⟩
      cases data with
      | nil => cases h
      | cons b data =>
        obtain ⟨hb, hdata⟩ := List.cons.inj h
        have hlt := b.toNat_lt
        exact ⟨⟨b.toNat, hb, by omega, by omega⟩, data, hdata⟩
    · rintro ⟨⟨i, hi, hlow, hhigh⟩, data, hdata⟩
      have hbyte : ((UInt8.ofNat i.toNat).toNat : ℤ) = i := by
        rw [UInt8.toNat_ofNat_of_lt' (by simp only [UInt8.size]; omega)]
        omega
      exact ⟨.ofNat i.toNat :: data, by rw [List.map_cons, List.map_cons, hi, hdata, hbyte]⟩

theorem exists_spells_iff {item : Json} : (∃ data, item.Spells data) ↔
    (∃ s, item = .string s) ∨
      ∃ items, item = .array items ∧ ∀ b ∈ items, ∃ i, b.integer? = some i ∧ 0 ≤ i ∧ i ≤ 255 := by
  constructor
  · rintro ⟨data, hspells⟩
    cases hspells with
    | text s => exact .inl ⟨s, rfl⟩
    | bytes hitems => exact .inr ⟨_, rfl, exists_bytes_iff.mp ⟨data, hitems⟩⟩
  · rintro (⟨s, rfl⟩ | ⟨items, rfl, hitems⟩)
    · exact ⟨_, .text s⟩
    · obtain ⟨data, hdata⟩ := exists_bytes_iff.mpr hitems
      exact ⟨data, .bytes hdata⟩

end Json

namespace Code
variable {c : Code} {item : Json} {v : Value}

/-- What is read of an item is what the item stands for. -/
theorem denotes_of_readItem (h : c.readItem item = .ok v) : item.Denotes v c.kind := by
  cases hkind : c.kind with
  | pad => simp [readItem, hkind] at h
  | float =>
    obtain ⟨n, rfl, rfl⟩ := (readItem_float_iff hkind).mp h
    exact ⟨n, _, rfl, rfl, n.roundsTo_toBinary64⟩
  | signed | unsigned =>
    obtain ⟨n, rfl, hn⟩ := (readItem_integer_iff (by simp [hkind])).mp h
    exact integer?_of_readInteger? hn
  | fixedString | pascalString => exact (readItem_string_iff (by simp [hkind])).mp h

/-- Items are read exactly if they fit. -/
theorem exists_readItem_iff : (∃ v, c.readItem item = .ok v) ↔ item.Fits c.kind := by
  cases hkind : c.kind with
  | pad => simp [readItem, hkind, Json.Fits]
  | float => simp [readItem_float_iff hkind, Json.Fits]
  | signed | unsigned =>
    have hinteger : c.kind = .signed ∨ c.kind = .unsigned := by simp [hkind]
    simp only [readItem_integer_iff hinteger]
    constructor
    · rintro ⟨v, n, rfl, hn⟩
      obtain ⟨i, hi, -⟩ := integer?_of_readInteger? hn
      exact ⟨i, hi⟩
    · rintro ⟨i, hi⟩
      cases item with
      | number n =>
        obtain ⟨v, hv⟩ := c.exists_readInteger? hi
        exact ⟨v, n, rfl, hv⟩
      | _ => cases hi
  | fixedString | pascalString =>
    have hstring : c.kind = .fixedString ∨ c.kind = .pascalString := by simp [hkind]
    rw [Json.Fits, ← Json.exists_spells_iff]
    simp only [readItem_string_iff hstring]
    constructor
    · rintro ⟨v, data, rfl, hspells⟩
      exact ⟨data, hspells⟩
    · rintro ⟨data, hspells⟩
      exact ⟨_, data, rfl, hspells⟩

/-- A value that was read for a code is not refused for its class. -/
theorem encode_ne_of_denotes (h : item.Denotes v c.kind) (count : ℕ) (o : ByteOrder) (c' : Code)
    (t : Value.Tag) : c.encode count o v ≠ .error (.unsuitableValue c' t) := by
  classical
  intro he
  cases hkind : c.kind with
  | pad =>
    rw [hkind] at h
    exact h
  | signed | unsigned =>
    rw [hkind] at h
    obtain ⟨i, -, hi⟩ := h
    rw [encode_of_integer? (by simp [hkind]) hi] at he
    split at he <;> cases he
  | float =>
    rw [hkind] at h
    obtain ⟨n, x, -, rfl, -⟩ := h
    simp only [encode, hkind] at he
    have hword := Except.map_eq_error_iff.mp he
    rw [floatWord_float] at hword
    split at hword <;> cases hword
  | fixedString | pascalString =>
    rw [hkind] at h
    obtain ⟨data, rfl, -⟩ := h
    simp [encode, hkind, stringData, Value.bytes?, Except.map] at he

end Code

namespace Layout
variable {layout : Layout} {items : List Json} {vs : List Value} {mode : Mode}

/-! ## All items -/

/-- The item at a place has no slot, or it fits the slot. -/
def ItemFits (layout : Layout) (items : List Json) (j : ℕ) : Prop :=
  ∀ g item, layout.slots[j]? = some g → items[j]? = some item → item.Fits g.code.kind

theorem length_of_readItems (h : layout.readItems items = .ok vs) :
    vs.length = min items.length layout.valueCount := by
  have hlen := congrArg List.length (readItems_eq_ok_iff.mp h)
  rw [readings, List.length_zipWith, length_slots, List.length_map, Nat.min_comm] at hlen
  exact hlen.symm

/-- The item that an error names is the first that does not fit. -/
theorem itemFits_of_readItems_error {m : Misfit} (h : layout.readItems items = .error m) :
    ¬ layout.ItemFits items m.index ∧ ∀ j < m.index, layout.ItemFits items j := by
  obtain ⟨hm, hbefore⟩ := readItems_eq_error_iff.mp h
  constructor
  · intro hfits
    obtain ⟨g, item, hg, hitem, hrefused⟩ := List.getElem?_zipWith_eq_some.mp hm
    obtain ⟨v, hv⟩ := Code.exists_readItem_iff.mpr (hfits g item hg hitem)
    rw [hv] at hrefused
    cases hrefused
  · intro j hj g item hg hitem
    obtain ⟨v, hv⟩ := hbefore j hj
    rw [getElem?_readings hg hitem] at hv
    exact Code.exists_readItem_iff.mp ⟨v, Option.some.inj hv⟩

theorem exists_readItems_iff :
    (∃ vs, layout.readItems items = .ok vs) ↔ ∀ j, layout.ItemFits items j := by
  constructor
  · rintro ⟨vs, h⟩ j g item hg hitem
    have hread := getElem?_readings hg hitem
    rw [readItems_eq_ok_iff.mp h, List.getElem?_map] at hread
    obtain ⟨v, -, hv⟩ := Option.map_eq_some_iff.mp hread
    exact Code.exists_readItem_iff.mp ⟨v, hv.symm⟩
  · intro hfits
    cases hread : layout.readItems items with
    | ok vs => exact ⟨vs, rfl⟩
    | error m => exact absurd (hfits m.index) (itemFits_of_readItems_error hread).1

/-- Items behind the last slot make no difference. -/
theorem readItems_congr {items' : List Json}
    (h : items'.take layout.valueCount = items.take layout.valueCount) :
    layout.readItems items' = layout.readItems items := by
  have hread : layout.readings items' = layout.readings items := by
    rw [readings, readings, ← zipWith_slots_take, h, zipWith_slots_take]
  rw [readItems_eq_all, readItems_eq_all, hread]

/-- Values that were read are packed without a mismatch of classes. -/
theorem pack_ne_of_readItems (h : layout.readItems items = .ok vs) (mode : Mode) (c : Code)
    (t : Value.Tag) : layout.pack mode vs ≠ .error (.unsuitableValue c t) := by
  intro he
  by_cases hlack : mode = .strict ∧ vs.length < layout.valueCount
  · rw [pack_of_lacking hlack] at he
    cases he
  · rw [pack_eq_pack_loose hlack, pack_loose_eq_error_iff] at he
    obtain ⟨j, g, v, hg, hv, hrefused, -⟩ := he
    obtain ⟨g', item, hg', -, hitem⟩ := exists_item_of_readItems h hv
    obtain rfl := Option.some.inj ((getElem?_slots_of_take hg).symm.trans hg')
    exact Code.encode_ne_of_denotes (Code.denotes_of_readItem hitem) _ _ _ _ hrefused

/-- Items are read exactly if each that has a slot fits it, and otherwise the first that does not
is named. Items behind the last slot make no difference. The values that are read are those that
the items stand for, one for each item that has a slot. They are never refused for their class
when they are packed, and are too few for strict packing exactly if the items were. -/
theorem readItems_fits (layout : Layout) (items : List Json) :
    ((∃ vs, layout.readItems items = .ok vs) ↔ ∀ j, layout.ItemFits items j) ∧
    (∀ vs, layout.readItems items = .ok vs →
      vs.length = min items.length layout.valueCount ∧
      (∀ (j : ℕ) (v : Value), vs[j]? = some v → ∃ g item, layout.slots[j]? = some g ∧
        items[j]? = some item ∧ item.Denotes v g.code.kind) ∧
      (∀ mode c t, layout.pack mode vs ≠ .error (.unsuitableValue c t)) ∧
      ((∃ needed available, layout.pack .strict vs = .error (.tooFewValues needed available)) ↔
        items.length < layout.valueCount)) ∧
    (∀ m, layout.readItems items = .error m →
      ¬ layout.ItemFits items m.index ∧ ∀ j < m.index, layout.ItemFits items j) ∧
    ∀ items' : List Json, items'.take layout.valueCount = items.take layout.valueCount →
      layout.readItems items' = layout.readItems items := by
  refine ⟨exists_readItems_iff, ?_, fun m => itemFits_of_readItems_error, fun items' =>
    readItems_congr⟩
  intro vs h
  have hlen := length_of_readItems h
  refine ⟨hlen, ?_, pack_ne_of_readItems h, ?_⟩
  · intro j v hv
    obtain ⟨g, item, hg, hitem, hread⟩ := exists_item_of_readItems h hv
    exact ⟨g, item, hg, hitem, Code.denotes_of_readItem hread⟩
  · rw [exists_tooFewValues_iff, hlen, min_lt_iff, or_iff_left (lt_irrefl _)]

/-- An integer between two numbers is read as the even one. The string lacks its item. -/
theorem readItems_fits_rounded :
    ∃ layout : Layout, layout = [⟨1, .uint8, .little, 1⟩, ⟨1, .pad, .little, 1⟩,
        ⟨1, .float64, .little, 8⟩, ⟨2, .fixedString, .little, 1⟩] ∧
      layout.readItems [.number (.natural 300), .number (.natural 9007199254740993)] =
        .ok [.uint 300, .float ⟨0x4340000000000000⟩] ∧
      (∃ needed available, layout.pack .strict [.uint 300, .float ⟨0x4340000000000000⟩] =
        .error (.tooFewValues needed available)) ∧
      ∀ c t, layout.pack .loose [.uint 300, .float ⟨0x4340000000000000⟩] ≠
        .error (.unsuitableValue c t) := by
  obtain ⟨-, hread, -⟩ := readItems_fits [⟨1, .uint8, .little, 1⟩, ⟨1, .pad, .little, 1⟩,
      ⟨1, .float64, .little, 8⟩, ⟨2, .fixedString, .little, 1⟩]
    [.number (.natural 300), .number (.natural 9007199254740993)]
  have heven : Binary64.ofInt 9007199254740993 = ⟨0x4340000000000000⟩ := by decide +kernel
  have hvalues : Layout.readItems [⟨1, .uint8, .little, 1⟩, ⟨1, .pad, .little, 1⟩,
      ⟨1, .float64, .little, 8⟩, ⟨2, .fixedString, .little, 1⟩]
      [.number (.natural 300), .number (.natural 9007199254740993)] =
        .ok [.uint 300, .float (.ofInt 9007199254740993)] := rfl
  rw [heven] at hvalues
  obtain ⟨-, -, hpack, hlack⟩ := hread _ hvalues
  exact ⟨_, rfl, hvalues, hlack.mpr (by decide), hpack .loose⟩

end Layout
end BinaryRecord
