import BinaryRecord.Command.Basic
import BinaryRecord.Proofs.Command.Run
import BinaryRecord.Proofs.Layout.Loose

/-!
# Packing that stops early

The command that packs values warns if its output is shorter than the layout. This is so
exactly if strict packing of the same values would lack some, and no other warning is
ever logged by the command.

## Main definitions

* `PackCommand.Reads`: the format and the values that the command comes to pack.
* `PackCommand.truncationEvent`: the warning.
-/

namespace BinaryRecord

namespace PackCommand
variable {c : PackCommand} {w : Workspace} {f f' : Format} {vs vs' : List Value} {packed : Bytes}

/-- The command finds the format and the values on the workspace. -/
def Reads (c : PackCommand) (w : Workspace) (f : Format) (vs : List Value) : Prop :=
  ∃ content items, Format.parse c.format = .ok f ∧ w.input c.input = .ok content ∧
    Json.parseItemsBytes? content = some items ∧ values f items = .ok vs

theorem Reads.unique (h : c.Reads w f vs) (h' : c.Reads w f' vs') : f = f' ∧ vs = vs' := by
  obtain ⟨content, items, hparse, hinput, hitems, hvalues⟩ := h
  obtain ⟨content', items', hparse', hinput', hitems', hvalues'⟩ := h'
  obtain rfl := Except.ok.inj (hparse.symm.trans hparse')
  obtain rfl := Except.ok.inj (hinput.symm.trans hinput')
  obtain rfl := Option.some.inj (hitems.symm.trans hitems')
  exact ⟨rfl, Except.ok.inj (hvalues.symm.trans hvalues')⟩

/-- The warning that fewer bytes come out than the layout covers. -/
def truncationEvent (length total : ℕ) : Event :=
  ⟨.warn, s!"Output truncated: {length} of {total} bytes packed"⟩

/-! ## What is done with the bytes -/

section
variable {m : Type → Type} [Monad m]

/-- The command writes and prints the bytes as asked for. -/
def deliver (c : PackCommand) (h : Host m) (packed : Bytes) : ExceptT Failure m Unit := do
  if let some path := c.output then
    h.writeOutput path packed
    h.info s!"Successfully packed {packed.length} bytes to {path}"
  if c.hex || c.output.isNone then h.print (Hex.encode packed ++ "\n")

/-- The command warns if the bytes are fewer than the layout covers, and delivers them. -/
def finish (c : PackCommand) (h : Host m) (f : Format) (packed : Bytes) :
    ExceptT Failure m Unit := do
  if packed.length < f.layout.byteLength then
    h.log (truncationEvent packed.length f.layout.byteLength)
  c.deliver h packed

/-- All that the command does once it has packed: it logs where packing stopped first. -/
def conclude (c : PackCommand) (h : Host m) (f : Format) (packed : Bytes)
    (stop? : Option Layout.Shortage) : ExceptT Failure m Unit := do
  if let some stop := stop? then h.log (stopEvent stop)
  c.finish h f packed

end

theorem keepsWarnings_deliver (c : PackCommand) (packed : Bytes) :
    Workspace.KeepsWarnings (c.deliver Workspace.host packed) := by
  have hprint : ∀ shown : Bool, Workspace.KeepsWarnings (if shown then
      (liftM (Workspace.host.print (Hex.encode packed ++ "\n")) : Workspace.Action Unit)
      else pure ()) := by
    intro shown
    cases shown with
    | true => exact .print _
    | false => exact .pure ()
  unfold deliver
  cases c.output with
  | none => exact hprint _
  | some path => exact .bind (.writeOutput path packed) fun _ => .bind (.info _) fun _ => hprint _

theorem warnings_finish (f : Format) (packed : Bytes) (w : Workspace) :
    ((c.finish Workspace.host f packed).run w).2.warnings =
      w.warnings ++ if packed.length < f.layout.byteLength then
        [truncationEvent packed.length f.layout.byteLength] else [] := by
  unfold finish
  by_cases h : packed.length < f.layout.byteLength
  · simp only [h, if_true]
    rw [Workspace.run_log_bind, keepsWarnings_deliver, Workspace.warnings_logged]
    rfl
  · simp only [h, if_false]
    rw [List.append_nil]
    exact keepsWarnings_deliver c packed w

theorem warnings_conclude (f : Format) (packed : Bytes) (stop? : Option Layout.Shortage)
    (w : Workspace) :
    ((c.conclude Workspace.host f packed stop?).run w).2.warnings =
      w.warnings ++ if packed.length < f.layout.byteLength then
        [truncationEvent packed.length f.layout.byteLength] else [] := by
  unfold conclude
  cases stop? with
  | none => exact warnings_finish f packed w
  | some stop =>
    have hstop : (w.logged (stopEvent stop)).warnings = w.warnings := by
      simp [Workspace.warnings_logged, stopEvent]
    dsimp only
    rw [Workspace.run_log_bind, warnings_finish, hstop]

/-! ## The whole run -/

/-- Either the command packs and goes on with the bytes, or it cannot pack and fails without
a warning. -/
theorem run_cases (c : PackCommand) (w : Workspace) :
    (∃ f vs packed stop? w', c.Reads w f vs ∧
      f.layout.packReporting (.ofLooseFlag c.loose) vs = .ok (packed, stop?) ∧
      w'.warnings = w.warnings ∧
      w.run (.pack c) = (c.conclude Workspace.host f packed stop?).run w') ∨
    ((∀ f vs packed, c.Reads w f vs → f.layout.pack (.ofLooseFlag c.loose) vs ≠ .ok packed) ∧
      (w.run (.pack c)).2.warnings = w.warnings) := by
  change (∃ f vs packed stop? w', _ ∧ _ ∧ _ ∧ (c.run Workspace.host).run w = _) ∨
    (_ ∧ ((c.run Workspace.host).run w).2.warnings = _)
  unfold PackCommand.run
  rw [Workspace.run_info_bind, Workspace.run_readFormat_bind]
  cases hparse : Format.parse c.format with
  | error e => exact .inr ⟨by simp [Reads, hparse], by simp⟩
  | ok f =>
    dsimp only
    rw [Workspace.run_readInput_bind, Workspace.input_logged]
    cases hinput : w.input c.input with
    | error e => exact .inr ⟨by simp [Reads, hinput], by simp⟩
    | ok content =>
      dsimp only
      cases hitems : Json.parseItemsBytes? content with
      | none =>
        refine .inr ⟨by simp [Reads, hinput, hitems], ?_⟩
        dsimp only
        rw [Workspace.run_throw]
        simp
      | some items =>
        dsimp only
        rw [Workspace.run_info_bind, Workspace.run_ofExcept_bind]
        cases hvalues : values f items with
        | error e =>
          refine .inr ⟨?_, by simp⟩
          rintro f' vs' packed ⟨content', items', hparse', hinput', hitems', hvalues'⟩
          simp_all
        | ok vs =>
          dsimp only
          rw [Workspace.run_ofExcept_bind]
          have hreads : c.Reads w f vs := ⟨content, items, hparse, hinput, hitems, hvalues⟩
          cases hpack : f.layout.packReporting (.ofLooseFlag c.loose) vs with
          | error e =>
            refine .inr ⟨?_, by simp [Except.mapError]⟩
            intro f' vs' packed hreads'
            obtain ⟨rfl, rfl⟩ := hreads.unique hreads'
            simp [Layout.pack, hpack, Except.map]
          | ok p =>
            refine .inl ⟨f, vs, p.1, p.2, _, hreads, hpack, ?_, rfl⟩
            simp

/-- The warnings of a run are the one on truncation, if strict packing lacks values. -/
theorem exists_warnings_run (c : PackCommand) (w : Workspace) :
    ∃ warnings : List Event, (w.run (.pack c)).2.warnings = w.warnings ++ warnings ∧
      ∀ e, e ∈ warnings ↔ ∃ f vs packed, c.Reads w f vs ∧
        f.layout.pack (.ofLooseFlag c.loose) vs = .ok packed ∧
        f.layout.pack .strict vs = .error (.tooFewValues f.layout.valueCount vs.length) ∧
        e = truncationEvent packed.length f.layout.byteLength := by
  rcases run_cases c w with
    ⟨f, vs, packed, stop?, w', hreads, hscan, hw', hrun⟩ | ⟨hnone, hwarnings⟩
  · have hpack : f.layout.pack (.ofLooseFlag c.loose) vs = .ok packed := by
      rw [Layout.pack, hscan]
      rfl
    have hshort := Layout.length_lt_iff_of_pack f.wellFormed hpack
    refine ⟨_, by rw [hrun, warnings_conclude, hw'], ?_⟩
    intro e
    constructor
    · intro he
      by_cases h : packed.length < f.layout.byteLength
      · rw [if_pos h, List.mem_singleton] at he
        exact ⟨f, vs, packed, hreads, hpack, hshort.mp h, he⟩
      · simp [h] at he
    · rintro ⟨f', vs', packed', hreads', hpack', hlack, rfl⟩
      -- The workspace decides what is read, so this is the packing that was run.
      obtain ⟨rfl, rfl⟩ := hreads.unique hreads'
      obtain rfl := Except.ok.inj (hpack.symm.trans hpack')
      rw [if_pos (hshort.mpr hlack)]
      exact List.mem_singleton.mpr rfl
  · refine ⟨[], by rw [hwarnings, List.append_nil], ?_⟩
    intro e
    constructor
    · intro he
      cases he
    · rintro ⟨f, vs, packed, hreads, hpack, -, -⟩
      exact absurd hpack (hnone f vs packed hreads)

end PackCommand

/-- Loose packing is strict packing of the longest run of groups for which there are values.
It looks at no value beyond that run and puts out the pads up to the first group that is not
covered. If there are enough values the modes agree. Otherwise the output is short, and this
is when the command that packs values warns. -/
theorem pack_loose_eq_strict :
    (∀ (f : Format) (vs : List Value), ∃ k : ℕ,
      IsGreatest {i | i ≤ f.layout.length ∧ Layout.valueCount (f.layout.take i) ≤ vs.length} k ∧
      (∀ g, f.layout[k]? = some g → g.code.isPad = false) ∧
      f.layout.pack .loose vs = Layout.pack (f.layout.take k) .strict vs ∧
      f.layout.pack .loose vs =
        Layout.pack (f.layout.take k) .strict
          (vs.take (Layout.valueCount (f.layout.take k))) ∧
      (f.layout.valueCount ≤ vs.length →
        f.layout.pack .loose vs = f.layout.pack .strict vs) ∧
      ∀ packed, f.layout.pack .loose vs = .ok packed →
        packed.length = Layout.byteLength (f.layout.take k) ∧
        (packed.length < f.layout.byteLength ↔
          f.layout.pack .strict vs =
            .error (.tooFewValues f.layout.valueCount vs.length))) ∧
    ∀ (c : PackCommand) (w : Workspace),
      ∃ warnings : List Event, (w.run (.pack c)).2.warnings = w.warnings ++ warnings ∧
        ∀ e, e ∈ warnings ↔ ∃ f vs packed, c.Reads w f vs ∧
          f.layout.pack (.ofLooseFlag c.loose) vs = .ok packed ∧
          f.layout.pack .strict vs = .error (.tooFewValues f.layout.valueCount vs.length) ∧
          e = PackCommand.truncationEvent packed.length f.layout.byteLength := by
  refine ⟨?_, PackCommand.exists_warnings_run⟩
  intro f vs
  have hloose := Layout.pack_loose_eq_pack_strict_take f.layout vs
  have hcovered := Layout.valueCount_take_covered_le f.layout vs.length
  refine ⟨f.layout.covered Group.valueCount vs.length, ?_, ?_, hloose, ?_, ?_, ?_⟩
  · exact Layout.isGreatest_covered_values f.layout vs.length
  · intro g hg
    exact Layout.isPad_of_getElem?_covered hg
  · rw [hloose, Layout.pack_strict_take hcovered]
  · intro hlen
    exact (Layout.pack_strict_eq_pack_loose hlen).symm
  · intro packed hpacked
    exact ⟨Layout.length_of_pack_loose f.wellFormed hpacked,
      Layout.length_lt_iff_of_pack f.wellFormed hpacked⟩

/-- The pads up to a group without enough values come out, and its values are not looked at. -/
theorem pack_loose_eq_strict_pads :
    ∃ f : Format, f.text = "B3x2HB" ∧
      f.layout.pack .loose [.int 7, .bytes [1]] = .ok [7, 0, 0, 0] ∧
      f.layout.pack .strict [.int 7, .bytes [1]] = .error (.tooFewValues 4 2) := by
  have hparse : Layout.parse "B3x2HB" = .ok
      [⟨1, .uint8, .little, 1⟩, ⟨3, .pad, .little, 1⟩, ⟨2, .uint16, .little, 2⟩,
        ⟨1, .uint8, .little, 1⟩] := by decide
  have hpack : Layout.pack
      [⟨1, .uint8, .little, 1⟩, ⟨3, .pad, .little, 1⟩, ⟨2, .uint16, .little, 2⟩,
        ⟨1, .uint8, .little, 1⟩] .loose [.int 7, .bytes [1]] = .ok [7, 0, 0, 0] := by decide
  obtain ⟨k, -, -, -, -, -, hshort⟩ :=
    pack_loose_eq_strict.1 ⟨"B3x2HB", _, hparse⟩ [.int 7, .bytes [1]]
  have hlack := (hshort _ hpack).2.mp (by simp [Layout.byteLength, Group.byteLength])
  exact ⟨⟨"B3x2HB", _, hparse⟩, rfl, hpack, hlack⟩

end BinaryRecord
