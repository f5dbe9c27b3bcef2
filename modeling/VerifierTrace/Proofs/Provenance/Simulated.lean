import VerifierTrace.Proofs.Machine.Writers
import VerifierTrace.Proofs.Provenance.Recursion

/-!
# VerifierTrace.Proofs.Provenance.Simulated

The trace through the states of the machine.

The machine leaves a grounded history behind (`grounded_of_states`): writers are lines that have
been run (`witnessed_of_states`), and the only slot that a line reads is updated in place if the
line writes it (`updated_in_place`). So the trace is the recursion (`states_resolved`).
-/

namespace VerifierTrace
namespace Machine

variable {setup : Setup} {lines : List LogLine} {states : List State}

/-- A line that reads one slot only, and is the last writer of that slot in the state after it,
updated it in place. -/
theorem updated_in_place (hn : LogLine.Numbered lines) (h : Machine.states setup lines = .ok states)
    {i : Nat} {line : LogLine} {ins : Instruction} {s : State} {slot : Slot}
    (hline : lines[i]? = some line) (hins : line.instruction? = some ins)
    (hsole : ins.soleRead? = some slot) (hs : states[i]? = some s)
    (hw : s.writerOf? slot = some (i : Int)) : s.effectOf? slot = some .update := by
  obtain ⟨-, hwit⟩ := witnessed_of_states hn h hs
  obtain ⟨j, l, -, -, hj, hl, hstays, -⟩ := hwit slot i hw
  have hij : i = j := by exact_mod_cast hj
  subst hij
  rw [hline] at hl
  cases hl
  obtain ⟨ms, hrun, rfl⟩ := states_ok h
  obtain ⟨hlt, rfl⟩ := List.getElem?_eq_some_iff.mp hs
  have hi : i < ms.length := by simpa using hlt
  obtain ⟨m, line', hprov, hline', hstep⟩ :=
    run_step (provenant_start setup lines) (step_provenant hn) hrun i hi
  rw [hline] at hline'
  cases hline'
  simp only [List.getElem_map] at hw ⊢
  simp only [LogLine.staysInFrame, Bool.and_eq_true, Bool.not_eq_true'] at hstays
  generalize ms[i] = m' at hstep hw ⊢
  cases transition_of_step hstep with
  | rest hnone => rw [hnone] at hins; cases hins
  | @apply ins' exprs s' hc _ happly =>
    rw [LogLine.instruction?, hc] at hins
    cases hins
    rw [hn i line hline] at happly
    refine State.effectOf?_soleRead happly hsole hw fun hold => ?_
    -- what was written before this line has an earlier writer
    obtain ⟨j, -, t, -, hj, -, -, ht, -⟩ := hprov.2 m.state List.mem_cons_self slot i hold
    have hjlt := (List.getElem?_eq_some_iff.mp ht).1
    simp only [List.length_map, List.length_take] at hjlt
    omega
  | call _ hcall => rw [hstays.1.2] at hcall; cases hcall
  | leave _ hexit => rw [hstays.2] at hexit; cases hexit
  | restart _ hexit => rw [hstays.2] at hexit; cases hexit

theorem grounded_of_states (hn : LogLine.Numbered lines)
    (h : Machine.states setup lines = .ok states) : History.Grounded ⟨lines, states⟩ where
  known := by
    intro idx slot w hw
    obtain ⟨i, s, rfl, hs, hw⟩ := History.writerAt?_eq_some hw
    have hknown := (witnessed_of_states hn h hs).1.known slot w hw
    rw [History.effectAt?, History.stateAt?, History.at?_natCast, hs, Option.bind_some,
      State.effectOf?, Option.isSome_map]
    exact hknown
  writer := by
    intro idx slot w hw
    obtain ⟨i, s, rfl, hs, hw⟩ := History.writerAt?_eq_some hw
    obtain ⟨-, hwit⟩ := witnessed_of_states hn h hs
    obtain ⟨j, line, t, -, rfl, hline, hstays, ht, -⟩ := hwit slot w hw
    have hle := (List.getElem?_eq_some_iff.mp ht).1
    rw [List.length_take] at hle
    simp only [LogLine.staysInFrame, Bool.and_eq_true] at hstays
    refine ⟨by omega, by omega, ?_⟩
    rw [History.instructionAt?, History.at?_natCast, hline]
    exact hstays.1.1
  inPlace := by
    intro idx slot hsole hw
    obtain ⟨i, s, rfl, hs, hw⟩ := History.writerAt?_eq_some hw
    obtain ⟨ins, hins, hsole⟩ := Option.bind_eq_some_iff.mp hsole
    obtain ⟨j, line, hj, hline, hins⟩ := History.instructionAt?_eq_some hins
    have hij : i = j := by exact_mod_cast hj
    subst hij
    rw [History.effectAt?, History.stateAt?, History.at?_natCast, hs]
    exact updated_in_place hn h hline hins hsole hs hw

/-- On the states of a run over numbered lines the trace is the recursion. -/
theorem states_resolved (hn : LogLine.Numbered lines)
    (h : Machine.states setup lines = .ok states) : History.Resolved ⟨lines, states⟩ :=
  History.resolved_of_grounded (grounded_of_states hn h)

/-- A log with updates in place, a store through a pointer from a callee, and a load of what it
stored. -/
def tracedLog : List String :=
  ["0: (bf) r1 = r10", "1: (07) r1 += -8", "2: (b7) r2 = 1", "3: (0f) r2 += r2",
    "4: (85) call pc+3", "8: (7b) *(u64 *)(r1 +0) = r2", "9: (bf) r0 = r2", "10: (95) exit",
    "5: (79) r6 = *(u64 *)(r10 -8)", "6: (bf) r7 = r0", "6: R7=2"]

theorem tracedLog_resolved : ∃ states : List State,
    Machine.states {} (Notice.settleAll {} (LogLine.ofLog tracedLog)).1 = .ok states ∧
      History.Resolved ⟨(Notice.settleAll {} (LogLine.ofLog tracedLog)).1, states⟩ ∧
      History.dependencies ⟨(Notice.settleAll {} (LogLine.ofLog tracedLog)).1, states⟩ 9 "r7" =
        [9, 6, 3, 2] := by
  let lines := (Notice.settleAll {} (LogLine.ofLog tracedLog)).1
  have hn : LogLine.Numbered lines :=
    LogLine.numbered_settleAll {} (LogLine.numbered_ofLog tracedLog)
  have hrun : Machine.states {} lines = .ok ((Machine.states {} lines).toOption.getD []) :=
    ok_of_isSome_toOption [] (by decide +kernel)
  exact ⟨_, hrun, states_resolved hn hrun, by decide +kernel⟩

end Machine
end VerifierTrace
