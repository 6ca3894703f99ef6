import BinaryRecord.Layout.Group
import BinaryRecord.Proofs.Except

/-!
# Arithmetic that can trap

On natural numbers and lists no operation goes wrong: a difference stops at zero and a part of a
list ends with the list. A machine has words of 64 bits, and what does not fit a word, a range
outside its sequence and pieces of length zero stop the program. A checked operation traps there.
A program of checked operations is sound if it never traps, and then it gives what the same
program gives without the checks.

## Main definitions

* `Checked.Run`: computations that may trap.
* `Checked.lift`: a computation without traps.
* `Checked.add`, `Checked.sub`, `Checked.mul`, `Checked.shiftAmount`, `Checked.slice`,
  `Checked.pieces`, `Checked.byte`: the operations that can trap.
-/

namespace BinaryRecord.Checked

/-- What stops a program. -/
inductive Trap where
  /-- A sum, a product, a shift or a cast with too many bits. -/
  | overflow
  /-- A difference below zero. -/
  | underflow
  /-- A range that does not lie within its sequence. -/
  | outOfRange
  /-- Pieces of length zero. -/
  | emptyPiece
  deriving DecidableEq, Repr

/-- How a computation ends without a value: it fails, as it may, or it traps. -/
inductive Halt where
  | fail (e : Error)
  | trap (t : Trap)
  deriving DecidableEq, Repr

/-- Computations that may fail or trap. -/
abbrev Run (α : Type) := Except Halt α

section Lift
variable {α β : Type}

theorem ok_bind (a : α) (f : α → Run β) : ((Except.ok a : Run α) >>= f) = f a := rfl

theorem error_bind (h : Halt) (f : α → Run β) :
    ((Except.error h : Run α) >>= f) = .error h := rfl

/-- A computation that does not trap. -/
def lift (x : Except Error α) : Run α := x.mapError .fail

@[simp] theorem lift_ok (a : α) : lift (.ok a) = .ok a := rfl

@[simp] theorem lift_error (e : Error) : lift (.error e : Except Error α) = .error (.fail e) := rfl

theorem lift_map (f : α → β) (x : Except Error α) : lift (x.map f) = (lift x).map f := by
  cases x <;> rfl

theorem lift_bind (x : Except Error α) (f : α → Except Error β) :
    lift (x >>= f) = lift x >>= fun a => lift (f a) := by
  cases x <;> rfl

theorem lift_ite (p : Prop) [Decidable p] (x y : Except Error α) :
    lift (if p then x else y) = if p then lift x else lift y := by
  split <;> rfl

theorem lift_mapM (f : α → Except Error β) (as : List α) :
    (as.mapM fun a => lift (f a)) = lift (as.mapM f) := by
  induction as with
  | nil => rfl
  | cons a as ih =>
    rw [List.mapM_cons, List.mapM_cons, ih, lift_bind]
    cases f a with
    | error e => rfl
    | ok b => cases as.mapM f <;> rfl

end Lift

/-! ## Words -/

/-- The number of values of a word. -/
def wordLimit : ℕ := 0x10000000000000000

section Words
variable {a b n : ℕ}

/-- The sum of two words. -/
def add (a b : ℕ) : Run ℕ :=
  if a + b < wordLimit then .ok (a + b) else .error (.trap .overflow)

/-- The product of two words. -/
def mul (a b : ℕ) : Run ℕ :=
  if a * b < wordLimit then .ok (a * b) else .error (.trap .overflow)

/-- The difference of two words. -/
def sub (a b : ℕ) : Run ℕ := if b ≤ a then .ok (a - b) else .error (.trap .underflow)

/-- The amount by which a number of the given bits is shifted. -/
def shiftAmount (bits n : ℕ) : Run ℕ :=
  if n < bits then .ok n else .error (.trap .overflow)

/-- The byte of a number. -/
def byte (n : ℕ) : Run UInt8 :=
  if n < 256 then .ok (UInt8.ofNat n) else .error (.trap .overflow)

theorem add_eq (h : a + b < wordLimit) : add a b = .ok (a + b) := if_pos h

theorem mul_eq (h : a * b < wordLimit) : mul a b = .ok (a * b) := if_pos h

theorem sub_eq (h : b ≤ a) : sub a b = .ok (a - b) := if_pos h

theorem shiftAmount_eq {bits : ℕ} (h : n < bits) : shiftAmount bits n = .ok n := if_pos h

theorem byte_eq (h : n < 256) : byte n = .ok (UInt8.ofNat n) := if_pos h

end Words

/-! ## Sequences -/

section Sequences
variable {α : Type}

/-- The part of a sequence from one place up to another. -/
def slice (as : List α) (start stop : ℕ) : Run (List α) :=
  if start ≤ stop ∧ stop ≤ as.length then .ok ((as.take stop).drop start)
  else .error (.trap .outOfRange)

/-- The pieces of one length that a byte string has from its front. -/
def pieces (length : ℕ) (bs : Bytes) : Run (List Bytes) :=
  if length = 0 then .error (.trap .emptyPiece)
  else .ok (Group.cut length (bs.length / length) bs)

theorem slice_eq {as : List α} {start stop : ℕ} (hle : start ≤ stop) (hlen : stop ≤ as.length) :
    slice as start stop = .ok ((as.take stop).drop start) := if_pos ⟨hle, hlen⟩

/-- The next `n` members behind a place are a part of the sequence if there are so many. -/
theorem slice_add {as : List α} {start n : ℕ} (h : start + n ≤ as.length) :
    slice as start (start + n) = .ok ((as.drop start).take n) := by
  rw [slice_eq (Nat.le_add_right ..) h, List.drop_take, Nat.add_sub_cancel_left]

theorem pieces_eq {length : ℕ} {bs : Bytes} (h : 0 < length) :
    pieces length bs = .ok (Group.cut length (bs.length / length) bs) := if_neg (Nat.ne_of_gt h)

end Sequences

end BinaryRecord.Checked
