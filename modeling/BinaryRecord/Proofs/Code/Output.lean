import BinaryRecord.Code.Output
import BinaryRecord.Proofs.Code.Stored

/-!
# What writing puts out

Writing a unit puts out the bytes that the code stores for the value, behind whatever is there, or
fails before anything is put out. So the output of several writes is what each of them puts out on
its own, and those that fail leave no trace.

## Main definitions

* `Output.Puts`: what a program puts out, or how it fails, from any output on.
* `Write.succeeds`, `Write.chunk`: whether a write succeeds, and what it puts out on its own.
-/

namespace BinaryRecord

namespace Output
variable {α : Type} {x y : Output Unit} {as bs : Bytes}

/-- From any output on, the program puts out the bytes behind it, or fails and leaves it alone. -/
def Puts (x : Output Unit) : Except Error Bytes → Prop
  | .ok bs => ∀ out, x.run out = (.ok (), out ++ bs)
  | .error e => ∀ out, x.run out = (.error e, out)

theorem puts_put (bs : Bytes) : Puts (put bs) (.ok bs) := fun _ => rfl

theorem puts_pure : Puts (pure ()) (.ok []) := fun out => by
  rw [List.append_nil]
  rfl

/-- Two programs that do not fail put out their bytes one behind the other. -/
theorem Puts.seq (hx : Puts x (.ok as)) (hy : Puts y (.ok bs)) :
    Puts (x >>= fun _ => y) (.ok (as ++ bs)) := by
  intro out
  change (match x.run out with | (r, out') => (ExceptT.bindCont (fun _ => y) r) out') = _
  rw [hx out, ← List.append_assoc]
  exact hy (out ++ as)

/-- A program that goes on from a result fails as the result does. -/
theorem puts_ofExcept_bind {f : α → Output Unit} {g : α → Bytes} (hf : ∀ a, Puts (f a) (.ok (g a)))
    (r : Except Error α) : Puts (ofExcept r >>= f) (r.map g) := by
  cases r with
  | error e => exact fun _ => rfl
  | ok a => exact hf a

theorem puts_forM (bs : Bytes) : Puts (bs.forM fun b => put [b]) (.ok bs) := by
  induction bs with
  | nil => exact puts_pure
  | cons b bs ih => exact (puts_put [b]).seq ih

end Output

open Output

theorem Word.puts_write (width : ℕ) (o : ByteOrder) (w : UInt64) :
    Puts (write width o w) (.ok (toBytes width o w)) := by
  cases o with
  | big => exact puts_put _
  | little =>
    have hreverse : toBytes width .little w = (toBytes width .big w).reverse :=
      toBytes_flip width .big w
    rw [hreverse]
    exact puts_forM _

namespace Code

theorem puts_writeFixed (n : ℕ) (data : Bytes) :
    Puts (writeFixed n data) (.ok (fixedUnit n data)) := by
  rw [fixedUnit_eq_min]
  exact (puts_put _).seq (puts_put _)

theorem puts_writePascal (n : ℕ) (data : Bytes) :
    Puts (writePascal n data) (.ok (pascalUnit n data)) :=
  (puts_put _).seq ((puts_put _).seq (puts_put _))

/-- Writing a unit puts out what the code stores for the value, or fails as storing it does. -/
theorem puts_write (c : Code) (n : ℕ) (o : ByteOrder) (v : Value) :
    Puts (c.write n o v) (c.encode n o v) := by
  unfold write encode
  cases c.kind with
  | pad => exact puts_put _
  | signed | unsigned => exact puts_ofExcept_bind (Word.puts_write c.width o) _
  | float => exact puts_ofExcept_bind (Word.puts_write c.width o) _
  | fixedString => exact puts_ofExcept_bind (puts_writeFixed n) _
  | pascalString => exact puts_ofExcept_bind (puts_writePascal n) _

end Code

namespace Write

/-- Does the write succeed on an empty output? -/
def succeeds (u : Write) : Bool := (u.run []).1.isOk

/-- What the write makes of an empty output. -/
def chunk (u : Write) : Bytes := (u.run []).2

/-- What the code stores for the value. -/
def stored (u : Write) : Except Error Bytes := u.code.encode u.unitLength u.order u.value

variable {u : Write} {bs : Bytes} {e : Error}

theorem run_of_stored_ok (h : u.stored = .ok bs) (out : Bytes) :
    u.run out = (.ok (), out ++ bs) := by
  have hputs := Code.puts_write u.code u.unitLength u.order u.value
  rw [← stored, h] at hputs
  exact hputs out

theorem run_of_stored_error (h : u.stored = .error e) (out : Bytes) :
    u.run out = (.error e, out) := by
  have hputs := Code.puts_write u.code u.unitLength u.order u.value
  rw [← stored, h] at hputs
  exact hputs out

/-- A write ends on any output as on the empty one, and puts the same behind it. -/
theorem run_eq_append (u : Write) (out : Bytes) : u.run out = ((u.run []).1, out ++ u.chunk) := by
  rw [chunk]
  cases h : u.stored with
  | error e => rw [run_of_stored_error h out, run_of_stored_error h [], List.append_nil]
  | ok bs => rw [run_of_stored_ok h out, run_of_stored_ok h [], List.nil_append]

theorem chunk_of_not_succeeds (h : u.succeeds = false) : u.chunk = [] := by
  rw [chunk]
  cases hstored : u.stored with
  | error e => rw [run_of_stored_error hstored]
  | ok bs =>
    rw [succeeds, run_of_stored_ok hstored] at h
    cases h

/-- A write ends as the code stores its value, and puts out what is stored. -/
theorem stored_eq_map_chunk (u : Write) : u.stored = (u.run []).1.map fun _ => u.chunk := by
  rw [chunk]
  cases hstored : u.stored with
  | error e => rw [run_of_stored_error hstored, Except.map]
  | ok bs => rw [run_of_stored_ok hstored, List.nil_append, Except.map]

theorem stored_of_succeeds (h : u.succeeds = true) : u.stored = .ok u.chunk := by
  rw [succeeds] at h
  rw [stored_eq_map_chunk]
  cases hrun : (u.run []).1 with
  | error e =>
    rw [hrun] at h
    cases h
  | ok _ => rfl

/-- Running writes one after another: each ends as on an empty output, and those that succeed put
their chunks behind one another. -/
theorem runAll_eq (us : List Write) (out : Bytes) :
    runAll us out =
      (us.map fun u => (u.run []).1, out ++ ((us.filter succeeds).map chunk).flatten) := by
  induction us generalizing out with
  | nil => simp [runAll]
  | cons u us ih =>
    rw [runAll, run_eq_append u out]
    simp only [ih]
    cases h : u.succeeds with
    | false => simp [h, chunk_of_not_succeeds h]
    | true => simp [h]

/-- A row of writes leaves on the output what was there, and behind it what each write that succeeds
makes of an empty output, in their order. A write that fails leaves the output alone, and fails as
the code does on the value. What is put out is what the code stores: it is as long as the code if
that is a number's and as long as was asked for if it is a pad or a fixed string. Behind a length
byte stand as many data bytes as it says, then fill. -/
theorem runAll_appends (us : List Write) (out : Bytes) :
    runAll us out =
        (us.map fun u => (u.run []).1, out ++ ((us.filter succeeds).map chunk).flatten) ∧
      (∀ (u : Write) (e : Error), (u.run out).1 = .error e → (u.run out).2 = out) ∧
      (∀ u : Write, u.code.encode u.unitLength u.order u.value =
        (u.run []).1.map fun _ => u.chunk) ∧
      ∀ u : Write, u.succeeds = true →
        match u.code.kind with
        | .signed | .unsigned | .float => u.chunk.length = u.code.width
        | .pad | .fixedString => u.chunk.length = u.unitLength
        | .pascalString => u.chunk.length = max u.unitLength 1 ∧
          ∃ data count, u.value = .bytes data ∧
            u.chunk = count :: data.take count.toNat ++ fill (u.unitLength - (count.toNat + 1)) ∧
            count.toNat = min (min data.length (u.unitLength - 1)) 255 := by
  refine ⟨runAll_eq us out, ?_, stored_eq_map_chunk, ?_⟩
  · intro u e h
    cases hstored : u.stored with
    | error e => rw [run_of_stored_error hstored]
    | ok bs =>
      rw [run_of_stored_ok hstored] at h
      cases h
  · intro u h
    have hstored : u.code.encode u.unitLength u.order u.value = .ok u.chunk := stored_of_succeeds h
    have hlength := Code.length_of_encode hstored
    rw [Code.storedLength] at hlength
    cases hkind : u.code.kind <;> simp only [hkind] at hlength ⊢
    case pascalString => exact ⟨hlength, Code.exists_pascalUnit_of_encode hkind hstored⟩
    all_goals exact hlength

/-- An `H` of two bytes though none are asked for, a `B` that is refused, a `p` without room for
data and one with room to spare; then a `p` whose data is longer than its length byte can say. -/
theorem runAll_appends_mixed :
    runAll [⟨.uint16, 0, .little, .uint 258⟩, ⟨.uint8, 1, .big, .uint 256⟩,
        ⟨.pascalString, 0, .big, .bytes [7, 8]⟩, ⟨.pascalString, 4, .big, .bytes [7, 8]⟩] [9] =
        ([.ok (), .error (.outOfRange .uint8 256), .ok (), .ok ()], [9, 2, 1, 0, 2, 7, 8, 0]) ∧
      (run ⟨.uint8, 1, .big, .uint 256⟩ [9]).2 = [9] ∧
      ∃ count rest,
        chunk ⟨.pascalString, 300, .big, .bytes (List.replicate 400 7)⟩ = count :: rest ∧
        count.toNat = 255 ∧ rest.length = 299 := by
  obtain ⟨hrun, hfailed, -, -⟩ := runAll_appends
    [⟨.uint16, 0, .little, .uint 258⟩, ⟨.uint8, 1, .big, .uint 256⟩,
      ⟨.pascalString, 0, .big, .bytes [7, 8]⟩, ⟨.pascalString, 4, .big, .bytes [7, 8]⟩] [9]
  refine ⟨hrun.trans (by decide), hfailed _ (.outOfRange .uint8 256) (by decide), ?_⟩
  obtain ⟨hlength, data, count, hdata, hchunk, hcount⟩ :=
    (runAll_appends [] []).2.2.2 ⟨.pascalString, 300, .big, .bytes (List.replicate 400 7)⟩ rfl
  rw [← Value.bytes.inj hdata, List.length_replicate] at hcount
  rw [hchunk, List.cons_append] at hlength
  exact ⟨count, _, hchunk, hcount, Nat.succ.inj hlength⟩

end Write
end BinaryRecord
