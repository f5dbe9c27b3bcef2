import VerifierTrace.Proofs.Analysis.Pass

/-!
# VerifierTrace.Proofs.Analysis.Lookup

Looking up the state at a line.

A line that neither calls nor exits does not look at the callers, so the state at it is a step from the
state at the line before, by a machine with any callers. Beyond the last line the last state stays.
Before the first line stands program entry with the default values, and that is where the pass starts
only if it has these values too.

* `Machine.step_state_congr`: outside calls and exits states alone make a step.
* `Analysis.stateAt_steps`: states that are looked up, inside the log and at both of its ends.
-/

namespace VerifierTrace
namespace Machine

/-- Outside calls and exits the state before a line alone determines the state after it. -/
theorem step_state_congr {m n : Machine} {line : LogLine} (hstate : n.state = m.state)
    (hcall : line.isCall = false) (hexit : line.isExit = false) :
    (n.step line).map state = (m.step line).map state := by
  cases hcontent : line.content with
  | instruction ins exprs =>
    have hstays : line.staysInFrame = true := by
      simp [LogLine.staysInFrame, LogLine.isInstruction, LogLine.instruction?, hcontent, hcall, hexit]
    rw [step_of_staysInFrame n hcontent hstays, step_of_staysInFrame m hcontent hstays,
      Machine.apply, Machine.apply, hstate]
    cases m.state.apply line.idx ins exprs with
    | error e => rfl
    | ok s => rfl
  | source note | notice what | unrecognized fault =>
    have hnone : line.instruction? = none := by simp [LogLine.instruction?, hcontent]
    rw [step_of_rest n hnone, step_of_rest m hnone, hstate]
    rfl

end Machine

theorem State.initial_inj {setup setup' : Setup} :
    State.initial setup 0 0 = State.initial setup' 0 0 ↔ setup = setup' := by
  have hcontext : ∀ setup, (State.initial setup 0 0).valueD Register.context.slot = setup.context := by
    intro setup
    have hne : Register.framePointer.slot ≠ Register.context.slot := by decide
    simp [State.valueD, State.valueOf?, State.initial, Table.get?_insert, hne]
  have hbase : ∀ setup,
      (State.initial setup 0 0).valueD Register.framePointer.slot = setup.frameBase := by
    intro setup
    simp [State.valueD, State.valueOf?, State.initial, Table.get?_insert]
  constructor
  · intro h
    have hfirst := hcontext setup
    have hsecond := hbase setup
    rw [h, hcontext] at hfirst
    rw [h, hbase] at hsecond
    calc setup = ⟨setup.context, setup.frameBase⟩ := rfl
      _ = ⟨setup'.context, setup'.frameBase⟩ := by rw [hfirst, hsecond]
  · rintro rfl
    rfl

namespace Analysis

variable {config : Config} {raws : List String} {a : Analysis}

theorem stateAt_natCast {i : Nat} (hi : i < a.machines.length) :
    a.stateAt i = a.machines[i].state := by
  have hlen : a.states.length = a.machines.length := List.length_map _
  have hmin : min (i : Int).toNat (a.states.length - 1) = i := by omega
  rw [stateAt, if_neg (by omega), hmin]
  simp [states, hi]

theorem stateAt_neg {idx : Int} (h : idx < 0) : a.stateAt idx = .initial {} 0 0 := if_pos h

theorem stateAt_beyond {idx : Int} (h : a.states.length ≤ idx) :
    a.stateAt idx = a.states.getLast?.getD (.initial {} 0 0) := by
  have hmin : min idx.toNat (a.states.length - 1) = a.states.length - 1 := by omega
  rw [stateAt, if_neg (by omega), hmin, List.getLast?_eq_getElem?]

/-- What is looked up at a line that neither calls nor exits is a step from what is looked up before it,
or from program entry with the values of the configuration for the first line. Beyond the last line
it is the last state. Before the first line it is program entry with the default values, which is
where the first line starts just if the configuration has them. -/
theorem stateAt_steps (h : run config raws = .ok a) :
    (∀ (i : Nat) (line : LogLine) (m : Machine), a.lines[i]? = some line →
      line.isCall = false → line.isExit = false →
      m.state = (if i = 0 then .initial config.setup 0 0 else a.stateAt (i - 1)) →
        (m.step line).map Machine.state = .ok (a.stateAt i)) ∧
    (∀ idx : Int, a.lines.length ≤ idx →
      a.stateAt idx = a.states.getLast?.getD (.initial {} 0 0)) ∧
    (∀ idx < 0, a.stateAt idx = .initial {} 0 0) ∧
    (State.initial {} 0 0 = State.initial config.setup 0 0 ↔ config.setup = {}) := by
  obtain ⟨-, -, -, hrun⟩ := run_ok h
  have hlen := Machine.length_trace hrun
  refine ⟨?_, fun idx hidx => stateAt_beyond ?_, fun idx => stateAt_neg, ?_⟩
  · intro i line m hline hcall hexit hm
    have hi : i < a.machines.length := by
      rw [hlen]
      exact (List.getElem?_eq_some_iff.mp hline).1
    obtain ⟨n, line', hn, hline', hs⟩ := Machine.run_from_last hrun hi
    rw [hline] at hline'
    cases hline'
    have hsame : m.state = n.state := by
      rw [hm, hn]
      cases i with
      | zero => rfl
      | succ i =>
        have hbefore : ((i + 1 : Nat) : Int) - 1 = i := by omega
        rw [if_neg (by omega), hbefore, stateAt_natCast (by omega),
          Machine.stateBefore_succ _ (by omega)]
    rw [Machine.step_state_congr hsame hcall hexit, hs, stateAt_natCast hi]
    rfl
  · rw [states, List.length_map, hlen]
    exact hidx
  · rw [State.initial_inj]
    exact eq_comm

/-- A program that is given a packet. -/
def packetConfig : Config := { context := "pkt()" }

/-- A log that ends in a called subprogram. -/
def packetLog : List String :=
  ["0: (bf) r6 = r1", "verifier chatter", "1: (85) call pc+2", "4: (bf) r0 = r1"]

/-- The first line starts with the packet, and the body of the call with the state at the call, by a
machine that has no callers. -/
theorem packetLog_steps : ∃ a, run packetConfig packetLog = .ok a ∧
    a.lines[0]? = some (LogLine.ofText 0 "0: (bf) r6 = r1") ∧
    ((Machine.start packetConfig.setup).step (LogLine.ofText 0 "0: (bf) r6 = r1")).map
      Machine.state = .ok (a.stateAt 0) ∧
    a.lines[3]? = some (LogLine.ofText 3 "4: (bf) r0 = r1") ∧
    (Machine.step ⟨packetConfig.setup, a.stateAt 2, [], 0⟩
      (LogLine.ofText 3 "4: (bf) r0 = r1")).map Machine.state = .ok (a.stateAt 3) ∧
    a.stateAt 9 = a.stateAt 3 := by
  have hrun : run packetConfig packetLog = .ok (ofLog packetConfig packetLog) :=
    run_ofLog (by decide +kernel)
  have hlines : (ofLog packetConfig packetLog).lines[0]? =
        some (LogLine.ofText 0 "0: (bf) r6 = r1") ∧
      (ofLog packetConfig packetLog).lines[3]? = some (LogLine.ofText 3 "4: (bf) r0 = r1") ∧
      (ofLog packetConfig packetLog).lines.length = 4 ∧
      (ofLog packetConfig packetLog).states.getLast? =
        some ((ofLog packetConfig packetLog).stateAt 3) := by decide +kernel
  obtain ⟨hfirst, hfourth, hlen, hlast⟩ := hlines
  obtain ⟨hsteps, hbeyond, -, -⟩ := stateAt_steps hrun
  refine ⟨_, hrun, hfirst, hsteps 0 _ _ hfirst (by decide +kernel) (by decide +kernel) rfl, hfourth,
    hsteps 3 _ _ hfourth (by decide +kernel) (by decide +kernel) rfl, ?_⟩
  rw [hbeyond 9 (by rw [hlen]; decide), hlast]
  rfl

/-- What is looked up before the first line is not where this program starts: from there the first
line leads elsewhere. -/
theorem packetLog_before : ∃ a, run packetConfig packetLog = .ok a ∧
    (a.stateAt (-1)).valueOf? "r1" = some "ctx()" ∧ (a.stateAt 0).valueOf? "r1" = some "pkt()" ∧
    a.lines[0]? = some (LogLine.ofText 0 "0: (bf) r6 = r1") ∧
    (LogLine.ofText 0 "0: (bf) r6 = r1").staysInFrame = true ∧
    (Machine.step ⟨packetConfig.setup, a.stateAt (-1), [], 0⟩
      (LogLine.ofText 0 "0: (bf) r6 = r1")).map Machine.state ≠ .ok (a.stateAt 0) := by
  have hrun : run packetConfig packetLog = .ok (ofLog packetConfig packetLog) :=
    run_ofLog (by decide +kernel)
  exact ⟨_, hrun, by decide +kernel⟩

end Analysis
end VerifierTrace
