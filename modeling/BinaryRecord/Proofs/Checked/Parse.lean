import BinaryRecord.Layout.Parse
import BinaryRecord.Proofs.Checked.Basic
import BinaryRecord.Proofs.Format.Bounds

/-!
# Reading a format with checks

The scan of a format multiplies and adds for each digit and for each group. A scan keeps its
count and its total within limits that leave room for one more digit and one more group, so none
of its words overflows. Positions are those of characters in memory and are not checked.

## Main definitions

* `Checked.parse`: the layout of a format, read with checks.
-/

namespace BinaryRecord.Checked

/-- Bytes that a group covers. -/
def groupLength (g : Group) : Run ℕ := mul g.count g.size

/-! ## Programs -/

/-- Takes a digit into the pending count. -/
def pushDigit (s : Scanner) (d : ℕ) : Run Scanner := do
  let count := s.digits
  let value ← add (← mul count.value 10) d
  if value ≤ repeatLimit then
    return { s with position := s.position + 1, pending := some { count with value } }
  else .error (.fail (.tooLarge count.start))

/-- Closes the pending count, or the count one, into a group of the code. -/
def close (s : Scanner) (code : Code) : Run (Scanner × Group) :=
  let count := s.count
  let group := Group.ofCode count.value code s.order
  if count.value = 0 then .error (.fail (.zeroRepeat count.start))
  else do
    let total ← add s.total (← groupLength group)
    if total ≤ byteLimit then return (⟨s.position + 1, s.order, total, none⟩, group)
    else .error (.fail (.tooLarge count.start))

/-- Takes one character, which may complete a group. -/
def step (s : Scanner) (c : Char) : Run (Scanner × Option Group) :=
  match Scanner.digit? c with
  | some d => (pushDigit s d).map fun s => (s, none)
  | none =>
    match ByteOrder.ofMarker? c with
    | some order => .ok ({ s with position := s.position + 1, order }, none)
    | none =>
      if Scanner.isBlank c then
        if s.pending.isSome then .error (.fail (.interruptedCount s.position))
        else .ok ({ s with position := s.position + 1 }, none)
      else
        match Code.ofChar? c with
        | none => .error (.fail (.unknownCode c s.position))
        | some code => (close s code).map fun p => (p.1, some p.2)

/-- Takes the remaining characters and gives the groups they complete. -/
def run (s : Scanner) : List Char → Run Layout
  | [] =>
    match s.pending with
    | some count => .error (.fail (.unfinishedGroup count.start))
    | none => .ok []
  | c :: cs => do
    let (s, group?) ← step s c
    let groups ← run s cs
    return group?.toList ++ groups

/-- The layout that a format describes. -/
def parse (format : String) : Run Layout := run Scanner.start format.toList

/-! ## No traps -/

variable {s : Scanner}

/-- The length of a group whose count is within its limit fits a word. -/
theorem groupLength_eq {g : Group} (hcount : g.count ≤ repeatLimit)
    (hsize : g.size = g.code.width) : groupLength g = .ok g.byteLength := by
  have hwidth := g.code.width_le
  have hle : g.count * g.size ≤ repeatLimit * 8 := Nat.mul_le_mul hcount (by omega)
  have hroom : repeatLimit * 8 < wordLimit := by decide
  exact mul_eq (by omega)

theorem digit?_le {c : Char} {d : ℕ} (h : Scanner.digit? c = some d) : d ≤ 9 := by
  unfold Scanner.digit? at h
  split at h
  · next hrange =>
    obtain rfl := Option.some.inj h
    have hhigh : c.toNat ≤ '9'.toNat := hrange.2
    have hnine : '9'.toNat = '0'.toNat + 9 := rfl
    omega
  · cases h

theorem digits_le (hs : s.Bounded) : s.digits.value ≤ repeatLimit := by
  unfold Scanner.digits
  cases hp : s.pending with
  | none => exact Nat.zero_le _
  | some p => exact hs.pending p hp

theorem pushDigit_eq (hs : s.Bounded) {d : ℕ} (hd : d ≤ 9) :
    pushDigit s d = lift (s.pushDigit d) := by
  have hle := digits_le hs
  have hroom : repeatLimit * 10 + 9 < wordLimit := by decide
  have hproduct : s.digits.value * 10 < wordLimit := by omega
  have hsum : s.digits.value * 10 + d < wordLimit := by omega
  simp only [pushDigit, mul_eq hproduct, add_eq hsum, ok_bind, Scanner.pushDigit, lift_ite]
  rfl

theorem close_eq (hs : s.Bounded) (code : Code) : close s code = lift (s.close code) := by
  have hlength : groupLength (Group.ofCode s.count.value code s.order) =
      .ok (Group.ofCode s.count.value code s.order).byteLength := groupLength_eq hs.count_le rfl
  have hsum : s.total + (Group.ofCode s.count.value code s.order).byteLength < wordLimit := by
    have hcount : s.count.value * code.width ≤ repeatLimit * 8 :=
      Nat.mul_le_mul hs.count_le code.width_le
    have htotal := hs.total
    have hroom : byteLimit + repeatLimit * 8 < wordLimit := by decide
    change s.total + s.count.value * code.width < wordLimit
    omega
  simp only [close, hlength, add_eq hsum, ok_bind, Scanner.close, lift_ite]
  rfl

/-- A step from a scanner within its limits does not trap. -/
theorem step_eq (hs : s.Bounded) (c : Char) : step s c = lift (s.step c) := by
  unfold step Scanner.step
  cases hdigit : Scanner.digit? c with
  | some d =>
    simp only [pushDigit_eq hs (digit?_le hdigit), lift_map]
  | none =>
    cases ByteOrder.ofMarker? c with
    | some order => rfl
    | none =>
      cases Code.ofChar? c with
      | none => simp only [lift_ite, lift_ok, lift_error]
      | some code => simp only [close_eq hs, lift_ite, lift_map, lift_ok, lift_error]

/-- A run from a scanner within its limits does not trap, as every step keeps the limits. -/
theorem run_eq (hs : s.Bounded) (cs : List Char) : run s cs = lift (s.run cs) := by
  induction cs generalizing s with
  | nil =>
    rw [run, Scanner.run]
    cases s.pending <;> rfl
  | cons c cs ih =>
    rw [run, Scanner.run, step_eq hs, lift_bind]
    cases hstep : s.step c with
    | error e => rfl
    | ok p =>
      obtain ⟨s', g?⟩ := p
      have hrest := ih ((Scanner.step_eq_ok_iff.mp hstep).bounded hs)
      simp only [lift_ok, ok_bind, hrest]
      cases s'.run cs <;> rfl

theorem parse_eq (format : String) : parse format = lift (Layout.parse format) :=
  run_eq Scanner.bounded_start format.toList

end BinaryRecord.Checked
