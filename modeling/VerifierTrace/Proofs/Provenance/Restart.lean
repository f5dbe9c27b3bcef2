import VerifierTrace.Proofs.Machine.Isolation
import VerifierTrace.Proofs.Machine.Writers
import VerifierTrace.Proofs.Provenance.Walk

/-!
# VerifierTrace.Proofs.Provenance.Restart

An exit that has no caller to return to.

The machine starts afresh there: no caller is saved, nothing has a writer, and all values are those
of program entry. What is left of the log before is where the exit stands in it, and how many exits
had no caller, and no step looks at either (`step_unplaced`). So from there on the machine goes
through the states that it would go through if the log began behind the exit, all writers are lines
behind it (`step_written`), and no trace goes back past it (`link_later`).

* `State.unplaced`, `Machine.unplaced`: what the later states depend on.
* `State.WrittenBy P s`: every writer that `s` records satisfies `P`.
* `states_restart`: the states of a log with such an exit.
* `restart_forgets`: states, writers and traces behind the exit.
-/

namespace VerifierTrace
namespace State

/-- The state without its place in the log: values, writers and frame. -/
def unplaced (s : State) : State := { s with idx := 0, pc := 0 }

/-- Every writer that the state records is one of `P`. -/
def WrittenBy (P : Int → Prop) (s : State) : Prop := ∀ slot w, s.writerOf? slot = some w → P w

theorem writtenBy_initial (P : Int → Prop) (setup : Setup) (idx pc : Int) :
    (initial setup idx pc).WrittenBy P := fun _ _ hw => by cases hw

theorem map_unplaced (callers : List State) :
    (callers.map unplaced).map unplaced = callers.map unplaced := by
  rw [List.map_map]
  rfl

variable {P : Int → Prop} {s s' caller inner : State} {setup : Setup} {idx : Int}
  {ins : Instruction} {exprs : List StateExpr}

/-! ## Frames -/

theorem enter_unplaced (setup : Setup) (s : State) (idx : Int) (ins : Instruction)
    (exprs : List StateExpr) : enter setup s.unplaced idx ins exprs = enter setup s idx ins exprs :=
  enter_congr setup (s := s) (t := s.unplaced) ⟨rfl, fun _ _ => rfl, fun _ _ => rfl, rfl⟩ idx ins
    exprs

theorem returnSlots_unplaced (caller inner : State) (d : Draft) (es : List (Slot × Int)) :
    returnSlots caller.unplaced inner.unplaced d es = returnSlots caller inner d es := by
  induction es generalizing d with
  | nil => rfl
  | cons e es ih =>
    have hslot : returnSlot caller.unplaced inner.unplaced d e.1 e.2 =
        returnSlot caller inner d e.1 e.2 := rfl
    simp only [returnSlots, hslot]
    cases returnSlot caller inner d e.1 e.2 with
    | error fault => rfl
    | ok d' => exact ih d'

theorem leave_unplaced (caller inner : State) (idx : Int) (ins : Instruction) :
    leave caller.unplaced inner.unplaced idx ins = leave caller inner idx ins := by
  have hscratched : scratched caller.unplaced = scratched caller := rfl
  have hwriters : inner.unplaced.writers = inner.writers := rfl
  rw [leave, leave, hscratched, hwriters, returnSlots_unplaced]
  rfl

/-! ## Writers -/

theorem WrittenBy.apply (hs : s.WrittenBy P) (hidx : P idx)
    (h : s.apply idx ins exprs = .ok s') : s'.WrittenBy P := by
  obtain ⟨stored, ha⟩ := applied_of_apply h
  intro slot w hw
  rw [ha.writers] at hw
  split at hw
  · cases hw
    exact hidx
  · exact hs slot w hw

theorem WrittenBy.enter (hs : s.WrittenBy P) (h : enter setup s idx ins exprs = .ok s') :
    s'.WrittenBy P := by
  intro slot w hw
  obtain ⟨outer, houter, -⟩ := enter_site h hw
  exact hs outer w houter

theorem WrittenBy.leave (hcaller : caller.WrittenBy P) (hinner : inner.WrittenBy P)
    (h : leave caller inner idx ins = .ok s') : s'.WrittenBy P := by
  intro slot w hw
  rcases leave_site h hw with hold | ⟨nested, hnested, -⟩
  · exact hcaller slot w hold
  · exact hinner nested w hnested

end State

namespace Machine

open LogLine

/-! ## What the next states depend on -/

/-- The machine without its place in the log, and without the exits counted so far. -/
def unplaced (m : Machine) : Machine :=
  ⟨m.setup, m.state.unplaced, m.callers.map State.unplaced, 0⟩

/-- A step does not depend on where in the log the machine is. -/
theorem step_unplaced (m : Machine) (line : LogLine) :
    (m.unplaced.step line).map unplaced = (m.step line).map unplaced := by
  unfold step
  cases line.content with
  | source note | notice what | unrecognized fault =>
    simp only [Except.map, unplaced, State.map_unplaced]
    rfl
  | instruction ins exprs =>
    obtain ⟨opcode, pc, action⟩ := ins
    simp only [execute]
    cases action with
    | callSubprogram target extent =>
      simp only [call, unplaced, State.enter_unplaced]
      cases State.enter m.setup m.state line.idx _ exprs with
      | error fault => rfl
      | ok s =>
        simp only [Except.map, unplaced, List.map_cons, State.map_unplaced]
        rfl
    | exit =>
      cases hcallers : m.callers with
      | nil => simp only [exit, unplaced, hcallers, List.map_nil, Except.map]
      | cons caller more =>
        simp only [exit, unplaced, hcallers, List.map_cons, State.leave_unplaced]
        cases State.leave caller m.state line.idx _ with
        | error fault => rfl
        | ok s => simp only [Except.map, unplaced, State.map_unplaced]
    | compute op dst src | cast dst src toSpace fromSpace | goto word target extent
    | branch left op right target | callHelper target extent =>
      have happly : ∀ ins, m.unplaced.state.apply line.idx ins exprs =
          m.state.apply line.idx ins exprs := fun _ => rfl
      simp only [Machine.apply, happly]
      cases m.state.apply line.idx _ exprs with
      | error fault => rfl
      | ok s => simp only [Except.map, unplaced, State.map_unplaced]

theorem statesFrom_congr {m n : Machine} (h : m.unplaced = n.unplaced) (lines : List LogLine) :
    (m.statesFrom lines).map (List.map State.unplaced) =
      (n.statesFrom lines).map (List.map State.unplaced) := by
  induction lines generalizing m n with
  | nil => rfl
  | cons line more ih =>
    have hstep : (m.step line).map unplaced = (n.step line).map unplaced := by
      rw [← step_unplaced m, ← step_unplaced n, h]
    rw [statesFrom_cons, statesFrom_cons]
    cases hm : m.step line with
    | error fault =>
      cases hn : n.step line with
      | error fault' =>
        rw [hm, hn] at hstep
        cases hstep
        rfl
      | ok n' =>
        rw [hm, hn] at hstep
        cases hstep
    | ok m' =>
      cases hn : n.step line with
      | error fault =>
        rw [hm, hn] at hstep
        cases hstep
      | ok n' =>
        rw [hm, hn] at hstep
        have hnext : m'.unplaced = n'.unplaced := Except.ok.inj hstep
        have hstate : m'.state.unplaced = n'.state.unplaced := congrArg Machine.state hnext
        have hcons : ∀ (s : State) (x : Except NumeralFault (List State)),
            (x.map (s :: ·)).map (List.map State.unplaced) =
              (x.map (List.map State.unplaced)).map (s.unplaced :: ·) := by
          intro s x
          cases x with
          | error fault => rfl
          | ok states => rfl
        simp only [hcons, ih hnext, hstate]

/-! ## The states of a log with a restart -/

theorem setup_of_step {m m' : Machine} {line : LogLine} (h : m.step line = .ok m') :
    m'.setup = m.setup := by
  cases transition_of_step h with
  | rest | apply | call | leave | restart => rfl

theorem setup_of_run {setup : Setup} {lines : List LogLine} {ms : List Machine}
    (h : run setup lines = .ok ms) : (last (start setup) ms).setup = setup :=
  last_invariant (P := fun m => m.setup = setup)
    (fun _ _ _ hm hs => (setup_of_step hs).trans hm) h rfl

theorem step_of_exitsUnbalanced {m : Machine} {line : LogLine}
    (h : m.exitsUnbalanced line = true) :
    ∃ m', m.step line = .ok m' ∧ m'.unplaced = (start m.setup).unplaced := by
  unfold exitsUnbalanced at h
  split at h
  · next ins exprs hcontent =>
    obtain ⟨opcode, pc, action⟩ := ins
    simp only [Bool.and_eq_true, decide_eq_true_eq, List.isEmpty_iff] at h
    obtain ⟨rfl, hcallers⟩ := h
    simp only [step, hcontent, execute, exit, hcallers]
    exact ⟨_, rfl, rfl⟩
  · cases h

theorem statesFrom_append {m : Machine} {xs : List LogLine} {ms : List Machine}
    (hxs : m.trace xs = .ok ms) (ys : List LogLine) :
    m.statesFrom (xs ++ ys) =
      ((last m ms).statesFrom ys).map fun later => ms.map Machine.state ++ later := by
  unfold statesFrom
  rw [trace_append_eq hxs]
  cases (last m ms).trace ys with
  | error fault => rfl
  | ok ms' => simp only [Except.map, List.map_append]

variable {setup : Setup} {before : List LogLine} {exit : LogLine} {ms : List Machine}

/-- The states of a log with an exit that has no caller: those before, one like that at the start,
and those that follow from it. -/
theorem states_restart (hrun : run setup before = .ok ms)
    (hexit : (last (start setup) ms).exitsUnbalanced exit = true) (rest : List LogLine) :
    ∃ m : Machine, m.unplaced = (start setup).unplaced ∧
      states setup (before ++ exit :: rest) =
        (m.statesFrom rest).map fun later => ms.map Machine.state ++ m.state :: later := by
  obtain ⟨m, hstep, hfresh⟩ := step_of_exitsUnbalanced hexit
  rw [setup_of_run hrun] at hfresh
  refine ⟨m, hfresh, ?_⟩
  show (start setup).statesFrom (before ++ exit :: rest) = _
  rw [statesFrom_append hrun, statesFrom_cons]
  simp only [hstep]
  cases m.statesFrom rest with
  | error fault => rfl
  | ok later => rfl

/-! ## Writers behind a restart -/

variable {P : Int → Prop}

theorem step_written {m m' : Machine} {line : LogLine} (hline : P line.idx)
    (hm : ∀ s ∈ m.state :: m.callers, s.WrittenBy P) (h : m.step line = .ok m') :
    ∀ s ∈ m'.state :: m'.callers, s.WrittenBy P := by
  obtain ⟨hstate, hcallers⟩ := List.forall_mem_cons.mp hm
  refine List.forall_mem_cons.mpr ?_
  cases transition_of_step h with
  | rest => exact ⟨hstate, hcallers⟩
  | apply _ _ happly => exact ⟨hstate.apply hline happly, hcallers⟩
  | call _ _ henter => exact ⟨hstate.enter henter, hm⟩
  | leave _ _ hmore hleave =>
    rw [hmore] at hcallers
    obtain ⟨hcaller, hmore⟩ := List.forall_mem_cons.mp hcallers
    exact ⟨hcaller.leave hstate hleave, hmore⟩
  | restart => exact ⟨State.writtenBy_initial P _ _ _, hcallers⟩

theorem writtenBy_of_unplaced_start (P : Int → Prop) {setup : Setup} {m : Machine}
    (h : m.unplaced = (start setup).unplaced) : ∀ s ∈ m.state :: m.callers, s.WrittenBy P := by
  have hwriters : m.state.writers = .empty := congrArg (fun m : Machine => m.state.writers) h
  have hcallers : m.callers.map State.unplaced = [] := congrArg Machine.callers h
  rw [List.map_eq_nil_iff.mp hcallers]
  intro s hs slot w hw
  rw [List.mem_singleton.mp hs, State.writerOf?, hwriters] at hw
  cases hw

theorem statesFrom_written {m : Machine} {lines : List LogLine} {states : List State}
    (hlines : ∀ line ∈ lines, P line.idx) (hm : ∀ s ∈ m.state :: m.callers, s.WrittenBy P)
    (h : m.statesFrom lines = .ok states) : ∀ s ∈ states, s.WrittenBy P := by
  induction lines generalizing m states with
  | nil =>
    cases h
    simp
  | cons line more ih =>
    obtain ⟨hline, hmore⟩ := List.forall_mem_cons.mp hlines
    rw [statesFrom_cons] at h
    cases hs : m.step line with
    | error fault =>
      rw [hs] at h
      cases h
    | ok m' =>
      have hm' := step_written hline hm hs
      simp only [hs] at h
      cases hlater : m'.statesFrom more with
      | error fault =>
        rw [hlater] at h
        cases h
      | ok later =>
        rw [hlater] at h
        cases h
        exact List.forall_mem_cons.mpr ⟨hm' _ List.mem_cons_self, ih hmore hm' hlater⟩

end Machine

namespace History

variable {h : History} {k idx line : Int} {slot : Slot} {next : Option Place}

/-- Where all states from line `k` on have later writers, a step from a later line reports a later
line. -/
theorem link_later (hw : ∀ i s, k ≤ i → h.stateAt? i = some s → s.WrittenBy fun w => k < w)
    (hidx : k < idx) (hlink : h.link (idx, slot) = some ⟨line, next⟩) : k < line := by
  obtain ⟨-, -, ⟨s, hs, hwriter, -⟩ | ⟨s, hs, hwriter, -⟩⟩ := link_cases hlink
  · exact hw (idx - 1) s (by omega) hs slot line hwriter
  · exact hw idx s (by omega) hs slot line hwriter

theorem dependencies_later
    (hw : ∀ i s, k ≤ i → h.stateAt? i = some s → s.WrittenBy fun w => k < w) (hidx : k < idx) :
    ∀ d ∈ h.dependencies idx slot, k < d := by
  have hkept : ∀ (place : Place) line next, k < place.1 →
      h.link place = some ⟨line, some next⟩ → k < next.1 := by
    intro place line next hplace hlink
    obtain ⟨hnext, -⟩ := link_next hlink
    rw [hnext]
    exact link_later hw hplace hlink
  intro d hd
  obtain ⟨⟨origin, other⟩, next, horigin, hlink⟩ :=
    link_of_mem_walk hkept hidx ((mem_firstOnes _ _).mp hd)
  exact link_later hw horigin hlink

end History

namespace Machine

open LogLine

variable {setup : Setup} {before rest : List LogLine} {exit : LogLine} {ms : List Machine}

/-- An exit that has no caller erases the past. Behind it the machine goes through the states, or
fails with the fault, of a run over the rest alone; their writers are lines behind the exit; and no
trace from there comes to another line. -/
theorem restart_forgets (hn : Numbered (before ++ exit :: rest))
    (hrun : run setup before = .ok ms)
    (hexit : (last (start setup) ms).exitsUnbalanced exit = true) :
    ((states setup (before ++ exit :: rest)).map fun all =>
        (all.drop (before.length + 1)).map State.unplaced) =
      (states setup rest).map (List.map State.unplaced) ∧
    ∀ all, states setup (before ++ exit :: rest) = .ok all →
      (∀ s ∈ all.drop (before.length + 1), s.WrittenBy fun w => before.length < w) ∧
      ∀ (i : Int) (slot : Slot), before.length < i →
        ∀ d ∈ History.dependencies ⟨before ++ exit :: rest, all⟩ i slot, before.length < d := by
  obtain ⟨m, hfresh, hstates⟩ := states_restart hrun hexit rest
  have hlength : (ms.map Machine.state).length = before.length := by
    rw [List.length_map, length_trace hrun]
  have hlines : ∀ line ∈ rest, (before.length : Int) < line.idx := by
    intro line hline
    obtain ⟨j, hj⟩ := List.getElem?_of_mem hline
    have hidx : line.idx = (before.length + (j + 1) : Nat) := by
      refine hn _ line ?_
      rw [List.getElem?_append_right (by omega), Nat.add_sub_cancel_left, List.getElem?_cons_succ]
      exact hj
    omega
  have hfrom : ∀ later, (ms.map Machine.state ++ m.state :: later).drop before.length =
      m.state :: later := fun later => List.drop_left' hlength
  have hbehind : ∀ later, (ms.map Machine.state ++ m.state :: later).drop (before.length + 1) =
      later := by
    intro later
    rw [List.drop_add_one_eq_tail_drop, hfrom, List.tail_cons]
  constructor
  · have hsame : (m.statesFrom rest).map (List.map State.unplaced) =
        (states setup rest).map (List.map State.unplaced) := statesFrom_congr hfresh rest
    rw [hstates, ← hsame]
    cases m.statesFrom rest with
    | error fault => rfl
    | ok later => simp only [Except.map, hbehind]
  · intro all hall
    rw [hstates] at hall
    cases hlater : m.statesFrom rest with
    | error fault =>
      rw [hlater] at hall
      cases hall
    | ok later =>
      rw [hlater] at hall
      cases hall
      have hm := writtenBy_of_unplaced_start (fun w => before.length < w) hfresh
      have hwritten : ∀ s ∈ later, s.WrittenBy fun w => before.length < w :=
        statesFrom_written hlines hm hlater
      rw [hbehind]
      refine ⟨hwritten, fun i slot hi => History.dependencies_later ?_ hi⟩
      intro i s hi hs
      obtain ⟨n, rfl, hget⟩ := History.at?_eq_some hs
      have hmem : s ∈ m.state :: later := by
        rw [← hfrom later]
        refine List.mem_of_getElem? (i := n - before.length) ?_
        rw [List.getElem?_drop, ← hget]
        congr 1
        omega
      rcases List.mem_cons.mp hmem with rfl | hmem
      · exact hm _ List.mem_cons_self
      · exact hwritten s hmem

/-- A call that is answered, an exit without a caller, and lines behind it that update what was
written before and exit once more. -/
def erasingLog : List String :=
  ["0: (b7) r6 = 7 ; R6_w=7", "1: (85) call pc+1", "3: (95) exit", "2: (95) exit",
    "0: (07) r6 += 1", "1: (bf) r1 = r6", "2: (95) exit", "3: (bf) r2 = r1"]

theorem erasingLog_forgets : ∃ before exit rest ms all,
    before ++ exit :: rest = ofLog erasingLog ∧ before.length = 3 ∧ run {} before = .ok ms ∧
      (last (start {}) ms).exitsUnbalanced exit = true ∧
      states {} (before ++ exit :: rest) = .ok all ∧
      History.dependencies ⟨before ++ exit :: rest, all⟩ 5 "r1" = [5, 4] ∧
      ((states {} (before ++ exit :: rest)).map fun all =>
        (all.drop (before.length + 1)).map State.unplaced) =
        (states {} rest).map (List.map State.unplaced) ∧
      (∀ s ∈ all.drop (before.length + 1), s.WrittenBy fun w => before.length < w) ∧
      ∀ (i : Int) (slot : Slot), before.length < i →
        ∀ d ∈ History.dependencies ⟨before ++ exit :: rest, all⟩ i slot, before.length < d := by
  let before := (ofLog erasingLog).take 3
  let exit := ofText 3 "2: (95) exit"
  let rest := (ofLog erasingLog).drop 4
  have hlines : before ++ exit :: rest = ofLog erasingLog := by decide +kernel
  have hn : Numbered (before ++ exit :: rest) := hlines ▸ numbered_ofLog erasingLog
  have hrun : run {} before = .ok ((run {} before).toOption.getD []) :=
    ok_of_isSome_toOption [] (by decide +kernel)
  have hstates : states {} (before ++ exit :: rest) =
      .ok ((states {} (before ++ exit :: rest)).toOption.getD []) :=
    ok_of_isSome_toOption [] (by decide +kernel)
  have hexit : (last (start {}) ((run {} before).toOption.getD [])).exitsUnbalanced exit =
      true := by decide +kernel
  obtain ⟨hsame, hbehind⟩ := restart_forgets hn hrun hexit
  exact ⟨before, exit, rest, _, _, hlines, by decide +kernel, hrun, hexit, hstates,
    by decide +kernel, hsame, hbehind _ hstates⟩

end Machine
end VerifierTrace
