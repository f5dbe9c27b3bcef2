import VerifierTrace.Machine.Run
import VerifierTrace.Proofs.Machine.Frame.Leave
import VerifierTrace.Proofs.Machine.Pointer

/-!
# VerifierTrace.Proofs.Machine.Run

Steps by what they do to the callers, and invariants of whole runs.

* `Transition m line m'`: the five ways in which a line takes the machine from `m` to `m'`;
  `transition_of_step` shows that there are no others.
* `Reachable setup m`: the machine `m` is what a run over some log ends in.
* `run_step`, `run_invariant`: what holds at the start and is kept by every step, with the states so
  far at hand, holds before and after every line.
* `run_from_last`: a machine of a run is a step from a machine with the state before it.
* `Stacked`: every saved state is tidy and lies in the frame that its place among the callers says;
  `Reachable.stacked` shows it.
-/

namespace VerifierTrace
namespace LogLine

def isCall (l : LogLine) : Bool :=
  match l.instruction? with
  | some ⟨_, _, .callSubprogram ..⟩ => true
  | _ => false

def isExit (l : LogLine) : Bool :=
  match l.instruction? with
  | some ⟨_, _, .exit⟩ => true
  | _ => false

def staysInFrame (l : LogLine) : Bool := l.isInstruction && !l.isCall && !l.isExit

end LogLine

namespace Machine

/-- The ways in which a line takes the machine on. -/
inductive Transition (m : Machine) (line : LogLine) : Machine → Prop where
  /-- A line without an instruction. -/
  | rest : line.instruction? = none → Transition m line { m with state := m.state.rest }
  | apply {ins : Instruction} {exprs : List StateExpr} {s : State} :
      line.content = .instruction ins exprs → line.staysInFrame = true →
      m.state.apply line.idx ins exprs = .ok s → Transition m line { m with state := s }
  | call {ins : Instruction} {exprs : List StateExpr} {s : State} :
      line.content = .instruction ins exprs → line.isCall = true →
      State.enter m.setup m.state line.idx ins exprs = .ok s →
      Transition m line { m with state := s, callers := m.state :: m.callers }
  /-- An exit to a caller. -/
  | leave {ins : Instruction} {exprs : List StateExpr} {caller s : State} {more : List State} :
      line.content = .instruction ins exprs → line.isExit = true → m.callers = caller :: more →
      State.leave caller m.state line.idx ins = .ok s →
      Transition m line { m with state := s, callers := more }
  /-- An exit without a caller. -/
  | restart {ins : Instruction} {exprs : List StateExpr} :
      line.content = .instruction ins exprs → line.isExit = true → m.callers = [] →
      Transition m line { m with
        state := .initial m.setup line.idx (ins.pc.getD 0 : Nat), unbalanced := m.unbalanced + 1 }

theorem transition_of_step {m m' : Machine} {line : LogLine} (h : m.step line = .ok m') :
    Transition m line m' := by
  unfold step at h
  cases hc : line.content with
  | instruction ins exprs =>
    obtain ⟨opcode, pc, action⟩ := ins
    rw [hc] at h
    simp only [execute] at h
    cases action with
    | callSubprogram target extent =>
      simp only [call] at h
      split at h
      · cases h
      · rename_i s hs
        cases h
        exact .call hc (by simp [LogLine.isCall, LogLine.instruction?, hc]) hs
    | exit =>
      have hexit : line.isExit = true := by simp [LogLine.isExit, LogLine.instruction?, hc]
      simp only [exit] at h
      split at h
      · rename_i hcallers
        cases h
        exact .restart hc hexit hcallers
      · rename_i caller more hcallers
        split at h
        · cases h
        · rename_i s hs
          cases h
          exact .leave hc hexit hcallers hs
    | compute op dst src | cast dst src toSpace fromSpace | goto word target extent
    | branch left op right target | callHelper target extent =>
      simp only [Machine.apply] at h
      split at h
      · cases h
      · rename_i s hs
        cases h
        refine .apply hc ?_ hs
        simp [LogLine.staysInFrame, LogLine.isInstruction, LogLine.isCall, LogLine.isExit,
          LogLine.instruction?, hc]
  | source note | notice what | unrecognized fault =>
    rw [hc] at h
    cases h
    exact .rest (by simp [LogLine.instruction?, hc])

theorem not_isExit_of_isCall {l : LogLine} (h : l.isCall = true) : l.isExit = false := by
  unfold LogLine.isCall at h
  unfold LogLine.isExit
  split at h
  · next heq => rw [heq]
  · cases h

theorem not_isCall_of_isExit {l : LogLine} (h : l.isExit = true) : l.isCall = false := by
  cases hc : l.isCall with
  | false => rfl
  | true => rw [not_isExit_of_isCall hc] at h; cases h

theorem step_of_rest (m : Machine) {line : LogLine} (h : line.instruction? = none) :
    m.step line = .ok { m with state := m.state.rest } := by
  unfold step
  split
  · next hcontent =>
    rw [LogLine.instruction?, hcontent] at h
    cases h
  · rfl

theorem step_of_staysInFrame (m : Machine) {line : LogLine} {ins : Instruction}
    {exprs : List StateExpr} (hcontent : line.content = .instruction ins exprs)
    (hstays : line.staysInFrame = true) : m.step line = m.apply line.idx ins exprs := by
  obtain ⟨opcode, pc, action⟩ := ins
  rw [step, hcontent]
  cases action with
  | callSubprogram target extent | exit =>
    simp [LogLine.staysInFrame, LogLine.isCall, LogLine.isExit, LogLine.instruction?,
      hcontent] at hstays
  | compute op dst src | cast dst src toSpace fromSpace | goto word target extent
  | branch left op right target | callHelper target extent => rfl

theorem apply_ok_iff {m m' : Machine} {idx : Int} {ins : Instruction} {exprs : List StateExpr} :
    m.apply idx ins exprs = .ok m' ↔
      ∃ s, m.state.apply idx ins exprs = .ok s ∧ m' = { m with state := s } := by
  unfold Machine.apply
  cases m.state.apply idx ins exprs with
  | error e => simp
  | ok s => simp [eq_comm]

theorem exists_apply_iff {m : Machine} {idx : Int} {ins : Instruction} {exprs : List StateExpr} :
    (∃ m', m.apply idx ins exprs = .ok m') ↔ ∃ s, m.state.apply idx ins exprs = .ok s := by
  simp only [apply_ok_iff]
  constructor
  · rintro ⟨m', s, hs, -⟩
    exact ⟨s, hs⟩
  · rintro ⟨s, hs⟩
    exact ⟨_, s, hs, rfl⟩

theorem step_of_isCall {m m' : Machine} {line : LogLine} (hcall : line.isCall = true)
    (h : m.step line = .ok m') :
    ∃ ins exprs s, State.enter m.setup m.state line.idx ins exprs = .ok s ∧
      m' = { m with state := s, callers := m.state :: m.callers } := by
  cases transition_of_step h with
  | rest hnone => simp [LogLine.isCall, hnone] at hcall
  | apply _ hstays => simp [LogLine.staysInFrame, hcall] at hstays
  | call _ _ hs => exact ⟨_, _, _, hs, rfl⟩
  | leave _ hexit => rw [not_isExit_of_isCall hcall] at hexit; cases hexit
  | restart _ hexit => rw [not_isExit_of_isCall hcall] at hexit; cases hexit

theorem step_of_isExit {m m' : Machine} {line : LogLine} {caller : State} {more : List State}
    (hexit : line.isExit = true) (hcallers : m.callers = caller :: more)
    (h : m.step line = .ok m') :
    ∃ ins s, State.leave caller m.state line.idx ins = .ok s ∧
      m' = { m with state := s, callers := more } := by
  cases transition_of_step h with
  | rest hnone => simp [LogLine.isExit, hnone] at hexit
  | apply _ hstays => simp [LogLine.staysInFrame, hexit] at hstays
  | call _ hcall => rw [not_isExit_of_isCall hcall] at hexit; cases hexit
  | leave _ _ hcallers' hs =>
    rw [hcallers] at hcallers'
    cases hcallers'
    exact ⟨_, _, hs, rfl⟩
  | restart _ _ hcallers' => rw [hcallers] at hcallers'; cases hcallers'

/-! ## Runs -/

theorem ok_of_isSome_toOption {ε α : Type} {x : Except ε α} (default : α)
    (h : x.toOption.isSome) : x = .ok (x.toOption.getD default) := by
  cases x with
  | error e => cases h
  | ok a => rfl

theorem trace_cons_ok {m : Machine} {line : LogLine} {more : List LogLine} {ms : List Machine}
    (h : m.trace (line :: more) = .ok ms) :
    ∃ m' ms', m.step line = .ok m' ∧ m'.trace more = .ok ms' ∧ ms = m' :: ms' := by
  unfold trace at h
  cases hs : m.step line with
  | error e => rw [hs] at h; cases h
  | ok m' =>
    rw [hs] at h
    cases ht : m'.trace more with
    | error e => simp only [ht] at h; cases h
    | ok ms' =>
      simp only [ht] at h
      cases h
      exact ⟨m', ms', rfl, ht, rfl⟩

theorem last_cons (m m' : Machine) (ms : List Machine) : last m (m' :: ms) = last m' ms := by
  unfold last
  rw [List.getLast?_cons]
  rfl

theorem length_trace {m : Machine} {lines : List LogLine} {ms : List Machine}
    (h : m.trace lines = .ok ms) : ms.length = lines.length := by
  induction lines generalizing m ms with
  | nil => cases h; rfl
  | cons line more ih =>
    obtain ⟨m', ms', -, ht, rfl⟩ := trace_cons_ok h
    rw [List.length_cons, List.length_cons, ih ht]

/-- Each machine of a trace follows by a step from one of which all holds that every step keeps.
`P` may speak of the states so far. -/
theorem trace_step {P : List State → Machine → Prop} {lines before more : List LogLine}
    (hstep : ∀ past m m' line, P past m → lines[past.length]? = some line → m.step line = .ok m' →
      P (past ++ [m'.state]) m')
    {m : Machine} {ms : List Machine} (h : m.trace more = .ok ms) {past : List State}
    (hm : P past m) (hlines : lines = before ++ more) (hlen : past.length = before.length) (i : Nat)
    (hi : i < ms.length) :
    ∃ m' line, P (past ++ (ms.take i).map Machine.state) m' ∧
      lines[past.length + i]? = some line ∧ m'.step line = .ok ms[i] := by
  induction more generalizing m ms before past i with
  | nil =>
    cases h
    cases hi
  | cons line more ih =>
    obtain ⟨m', ms', hs, ht, rfl⟩ := trace_cons_ok h
    have hline : lines[past.length]? = some line := by
      rw [hlines, hlen, List.getElem?_append_right (Nat.le_refl _)]
      simp
    cases i with
    | zero => exact ⟨m, line, by simpa using hm, hline, hs⟩
    | succ i =>
      obtain ⟨m'', line', hp, hl, hs'⟩ := ih ht
        (hstep past m m' line hm hline hs)
        (show lines = (before ++ [line]) ++ more by rw [hlines]; simp) (by simp [hlen]) i
        (by simpa using hi)
      refine ⟨m'', line', by simpa using hp, ?_, hs'⟩
      rw [← hl, List.length_append, List.length_singleton]
      congr 1
      omega

theorem run_step {P : List State → Machine → Prop} {setup : Setup} {lines : List LogLine}
    (hstart : P [] (start setup))
    (hstep : ∀ past m m' line, P past m → lines[past.length]? = some line → m.step line = .ok m' →
      P (past ++ [m'.state]) m')
    {ms : List Machine} (h : run setup lines = .ok ms) (i : Nat) (hi : i < ms.length) :
    ∃ m line, P ((ms.take i).map Machine.state) m ∧ lines[i]? = some line ∧
      m.step line = .ok ms[i] := by
  obtain ⟨m, line, hp, hl, hs⟩ := trace_step hstep h hstart
    (show lines = [] ++ lines from rfl) rfl i hi
  exact ⟨m, line, by simpa using hp, by simpa using hl, hs⟩

/-- What holds at the start and is kept by every step holds after each line of a run. -/
theorem run_invariant {P : List State → Machine → Prop} {setup : Setup} {lines : List LogLine}
    (hstart : P [] (start setup))
    (hstep : ∀ past m m' line, P past m → lines[past.length]? = some line → m.step line = .ok m' →
      P (past ++ [m'.state]) m')
    {ms : List Machine} (h : run setup lines = .ok ms) (i : Nat) (hi : i < ms.length) :
    P ((ms.take (i + 1)).map Machine.state) ms[i] := by
  obtain ⟨m, line, hp, hl, hs⟩ := run_step hstart hstep h i hi
  have hlen : ((ms.take i).map Machine.state).length = i := by simp; omega
  have hnext := hstep _ m ms[i] line hp (by rw [hlen]; exact hl) hs
  rw [List.take_succ_eq_append_getElem hi, List.map_append]
  exact hnext

/-- The state that a run is in when so many of its machines are past. -/
def stateBefore (setup : Setup) (ms : List Machine) (i : Nat) : State :=
  ((ms.take i).map state).getLast?.getD (.initial setup 0 0)

theorem stateBefore_succ (setup : Setup) {ms : List Machine} {i : Nat} (hi : i < ms.length) :
    stateBefore setup ms (i + 1) = ms[i].state := by
  rw [stateBefore, List.take_succ_eq_append_getElem hi, List.map_append]
  simp

theorem run_from_last {setup : Setup} {lines : List LogLine} {ms : List Machine}
    (h : run setup lines = .ok ms) {i : Nat} (hi : i < ms.length) :
    ∃ (m : Machine) (line : LogLine), m.state = stateBefore setup ms i ∧ lines[i]? = some line ∧
      m.step line = .ok ms[i] := by
  refine run_step (P := fun past m => m.state = past.getLast?.getD (.initial setup 0 0)) rfl ?_ h i hi
  intro past m m' line hm hline hs
  simp

/-- The machine is what a run over some log ends in. -/
def Reachable (setup : Setup) (m : Machine) : Prop :=
  ∃ lines ms, run setup lines = .ok ms ∧ m = last (start setup) ms

theorem last_invariant {P : Machine → Prop}
    (hstep : ∀ m m' line, P m → m.step line = .ok m' → P m') {lines : List LogLine} {m : Machine}
    {ms : List Machine} (h : m.trace lines = .ok ms) (hm : P m) : P (last m ms) := by
  induction lines generalizing m ms with
  | nil => cases h; exact hm
  | cons line more ih =>
    obtain ⟨m', ms', hs, ht, rfl⟩ := trace_cons_ok h
    rw [last_cons]
    exact ih ht (hstep m m' line hm hs)

/-! ## Saved states -/

/-- The states are tidy, and each lies in the frame that the number of states below it says. -/
def Stacked : List State → Prop
  | [] => True
  | s :: below => s.Tidy ∧ s.frame = below.length ∧ Stacked below

theorem initial_tidy (setup : Setup) (idx pc : Int) : (State.initial setup idx pc).Tidy where
  known := fun slot w h => by cases h
  canonical := fun slot w h => by cases h

theorem rest_tidy {s : State} (h : s.Tidy) : s.rest.Tidy where
  known := fun slot w hw => by
    show ((settle s.values).get? slot).isSome
    rw [get?_settle, Option.isSome_map]
    exact h.known slot w hw
  canonical := h.canonical

theorem canonical_of_mem_writes {ins : Instruction} {k : Slot} (h : k ∈ ins.writes) (frame : Nat) :
    Slot.Canonical frame k := by
  have hform : ∀ f : Operand.Form, Slot.Canonical frame f.slot := by
    intro f
    cases f with
    | register r => exact Slot.canonical_of_none (Slot.stackLocation?_register r)
    | lowerHalf r => exact Slot.canonical_of_none (Slot.stackLocation?_register r)
    | memory width base offset =>
      simp only [Operand.Form.slot]
      split
      · exact Slot.canonical_stack frame offset
      · exact Slot.canonical_of_none Slot.stackLocation?_memory
    | constant => exact Slot.canonical_of_none (by decide)
  rcases Action.mem_writes h with ⟨r, rfl⟩ | ⟨o, -, rfl⟩
  · exact Slot.canonical_of_none (Slot.stackLocation?_register r)
  · exact hform o.form

theorem apply_tidy {s s' : State} {idx : Int} {ins : Instruction} {exprs : List StateExpr}
    (h : s.apply idx ins exprs = .ok s') (ht : s.Tidy) : s'.Tidy := by
  obtain ⟨stored, ha⟩ := State.applied_of_apply h
  refine ⟨?_, ?_⟩
  · intro k w hw
    refine ha.values k ?_
    rw [ha.writers] at hw
    split at hw
    · next hk => exact .inr hk
    · exact .inl (ht.known k w hw)
  · intro k w hw
    rw [ha.frame]
    rw [ha.writers] at hw
    split at hw
    · next hk =>
      rcases hk with hk | hs
      · exact canonical_of_mem_writes hk s.frame
      · obtain ⟨owner, z, rfl⟩ := ha.named k hs
        exact Slot.canonical_ofFrame owner s.frame z
    · exact ht.canonical k w hw

theorem step_stacked {m m' : Machine} {line : LogLine} (h : m.step line = .ok m')
    (hm : Stacked (m.state :: m.callers)) : Stacked (m'.state :: m'.callers) := by
  obtain ⟨htidy, hframe, hbelow⟩ := hm
  cases transition_of_step h with
  | rest _ => exact ⟨rest_tidy htidy, hframe, hbelow⟩
  | apply _ _ hs =>
    obtain ⟨stored, ha⟩ := State.applied_of_apply hs
    exact ⟨apply_tidy hs htidy, ha.frame.trans hframe, hbelow⟩
  | call _ _ hs =>
    refine ⟨State.enter_tidy hs, ?_, htidy, hframe, hbelow⟩
    rw [State.enter_ok hs]
    simp [hframe]
  | leave _ _ hcallers hs =>
    rw [hcallers] at hbelow
    obtain ⟨hcaller, hcframe, hmore⟩ := hbelow
    refine ⟨State.leave_tidy hcaller htidy hs, ?_, hmore⟩
    rw [State.leave_ok hs]
    exact hcframe
  | restart _ _ hcallers =>
    rw [hcallers]
    exact ⟨initial_tidy _ _ _, rfl, trivial⟩

theorem Reachable.stacked {setup : Setup} {m : Machine} (h : Reachable setup m) :
    Stacked (m.state :: m.callers) := by
  obtain ⟨lines, ms, hrun, rfl⟩ := h
  refine last_invariant (fun m m' line hm hs => step_stacked hs hm) hrun ?_
  exact ⟨initial_tidy _ _ _, rfl, trivial⟩

end Machine
end VerifierTrace
