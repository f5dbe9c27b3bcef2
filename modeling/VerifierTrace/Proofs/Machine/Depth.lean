import VerifierTrace.Proofs.Machine.Bracket
import VerifierTrace.Proofs.Machine.Renumber

/-!
# VerifierTrace.Proofs.Machine.Depth

How deep in calls the machine is, by counting.

A call goes one frame up and an exit one frame down, but not below the ground: an exit there is
counted as unbalanced, and the machine starts afresh. So the depth is that of a walk which is pushed
up wherever it would fall below zero, by as much as it ever fell.

* `LogLine.surplus`: by how many the exits of some lines outnumber the calls.
* `LogLine.Peak lines u`: the greatest surplus of all beginnings of the lines is `u`.
* `step_depth`: what one line does to the number of open calls and of unbalanced exits.
* `Leveled lines m`: depth, unbalanced exits and position of the machine `m` are those that the
  lines say; `run_leveled` shows it for whole runs.
-/

namespace VerifierTrace
namespace LogLine

/-- By how many the exits outnumber the calls. -/
def surplus (lines : List LogLine) : Int := exits lines - calls lines

/-- The greatest surplus of all beginnings of the lines, the empty one included. -/
def Peak (lines : List LogLine) (u : Nat) : Prop :=
  (∀ pre, pre <+: lines → surplus pre ≤ u) ∧ ∃ pre, pre <+: lines ∧ surplus pre = u

theorem exits_concat (lines : List LogLine) (l : LogLine) :
    exits (lines ++ [l]) = exits lines + if l.isExit then 1 else 0 := by
  simp [exits, List.countP_append, List.countP_singleton]

theorem calls_concat (lines : List LogLine) (l : LogLine) :
    calls (lines ++ [l]) = calls lines + if l.isCall then 1 else 0 := by
  simp [calls, List.countP_append, List.countP_singleton]

theorem peak_nil : Peak [] 0 := by
  refine ⟨?_, [], List.nil_prefix, rfl⟩
  intro pre hpre
  rw [List.prefix_nil.mp hpre]
  simp [surplus, exits, calls]

theorem Peak.concat_same {lines : List LogLine} {u : Nat} {l : LogLine} (h : Peak lines u)
    (hl : surplus (lines ++ [l]) ≤ u) : Peak (lines ++ [l]) u := by
  obtain ⟨hle, pre, hpre, heq⟩ := h
  refine ⟨?_, pre, hpre.trans (List.prefix_append _ _), heq⟩
  intro q hq
  rcases List.prefix_concat_iff.mp hq with rfl | hq
  · exact hl
  · exact hle q hq

theorem Peak.concat_above {lines : List LogLine} {u : Nat} {l : LogLine} (h : Peak lines u)
    (hl : surplus (lines ++ [l]) = (u + 1 : Nat)) : Peak (lines ++ [l]) (u + 1) := by
  obtain ⟨hle, -⟩ := h
  refine ⟨?_, _, List.prefix_rfl, hl⟩
  intro q hq
  rcases List.prefix_concat_iff.mp hq with rfl | hq
  · exact Int.le_of_eq hl
  · have := hle q hq
    omega

/-- The index of the last instruction, and zero if there is none. -/
def lastIdx (lines : List LogLine) : Int :=
  ((lines.filter isInstruction).getLast?.map idx).getD 0

/-- The number of the last instruction; zero if it has none, or if there is no instruction. -/
def lastPc (lines : List LogLine) : Nat :=
  ((lines.filterMap instruction?).getLast?.bind Instruction.pc).getD 0

theorem lastIdx_concat (lines : List LogLine) (l : LogLine) :
    lastIdx (lines ++ [l]) = if l.isInstruction then l.idx else lastIdx lines := by
  unfold lastIdx
  rw [List.filter_append]
  cases h : l.isInstruction with
  | false => simp [h]
  | true => simp [h]

theorem lastPc_concat (lines : List LogLine) (l : LogLine) :
    lastPc (lines ++ [l]) =
      match l.instruction? with
      | some ins => ins.pc.getD 0
      | none => lastPc lines := by
  unfold lastPc
  rw [List.filterMap_append]
  cases h : l.instruction? with
  | none => simp [h]
  | some ins => simp [h]

end LogLine

namespace Machine

open LogLine

/-- One line and the numbers of open calls and of unbalanced exits. -/
theorem step_depth {m m' : Machine} {line : LogLine} (h : m.step line = .ok m') :
    m'.callers.length + (if line.isExit then 1 else 0) + m.unbalanced =
        m.callers.length + (if line.isCall then 1 else 0) + m'.unbalanced ∧
      (m'.unbalanced = m.unbalanced ∨
        m'.unbalanced = m.unbalanced + 1 ∧ line.isExit = true ∧ m.callers = []) := by
  cases transition_of_step h with
  | rest hnone => simp [isExit, isCall, hnone]
  | apply _ hstays _ =>
    simp only [staysInFrame, Bool.and_eq_true, Bool.not_eq_true'] at hstays
    simp [hstays.1.2, hstays.2]
  | call _ hcall _ => simp [hcall, not_isExit_of_isCall hcall]
  | leave _ hexit hcallers _ =>
    refine ⟨?_, .inl rfl⟩
    simp [hexit, not_isCall_of_isExit hexit, hcallers]
  | restart _ hexit hcallers =>
    refine ⟨?_, .inr ⟨rfl, hexit, hcallers⟩⟩
    simp only [hexit, not_isCall_of_isExit hexit, if_true]
    simp
    omega

theorem instruction?_of_content {l : LogLine} {ins : Instruction} {exprs : List StateExpr}
    (h : l.content = .instruction ins exprs) : l.instruction? = some ins := by
  rw [instruction?, h]

theorem step_position {m m' : Machine} {line : LogLine} (h : m.step line = .ok m') :
    m'.state.idx = (if line.isInstruction then line.idx else m.state.idx) ∧
      m'.state.pc =
        match line.instruction? with
        | some ins => ((ins.pc.getD 0 : Nat) : Int)
        | none => m.state.pc := by
  cases transition_of_step h with
  | rest hnone => simp [isInstruction, hnone, State.rest]
  | apply hcontent _ hs =>
    obtain ⟨target, origin, -, -, rfl⟩ := State.apply_ok_iff.mp hs
    simp [isInstruction, instruction?_of_content hcontent]
  | call hcontent _ hs =>
    rw [State.enter_ok hs]
    simp [isInstruction, instruction?_of_content hcontent]
  | leave hcontent _ _ hs =>
    rw [State.leave_ok hs]
    simp [isInstruction, instruction?_of_content hcontent]
  | restart hcontent _ _ =>
    simp [isInstruction, instruction?_of_content hcontent, State.initial]

theorem Stacked.frame_of_getElem? {states : List State} (h : Stacked states) {k : Nat} {s : State}
    (hs : states.reverse[k]? = some s) : s.frame = k := by
  induction states with
  | nil => simp at hs
  | cons t below ih =>
    obtain ⟨-, hframe, hbelow⟩ := h
    rw [List.reverse_cons, List.getElem?_append] at hs
    split at hs
    · exact ih hbelow hs
    · next hk =>
      have hlast := (List.getElem?_eq_some_iff.mp hs).1
      simp only [List.length_reverse, List.length_singleton] at hk hlast
      have hk : k = below.length := by omega
      subst hk
      simp at hs
      rw [← hs, hframe]

/-- The machine is where the lines say. -/
structure Leveled (lines : List LogLine) (m : Machine) : Prop where
  unbalanced : Peak lines m.unbalanced
  frame : (m.state.frame : Int) = calls lines - exits lines + m.unbalanced
  depth : m.callers.length = m.state.frame
  /-- The saved states from the outermost on lie in the frames `0`, `1` and so on. -/
  callers : ∀ (k : Nat) (s : State), m.callers.reverse[k]? = some s → s.frame = k
  idx : m.state.idx = lastIdx lines
  pc : m.state.pc = lastPc lines

theorem leveled_start (setup : Setup) : Leveled [] (start setup) where
  unbalanced := peak_nil
  frame := rfl
  depth := rfl
  callers := by
    intro k s hs
    simp [start] at hs
  idx := rfl
  pc := rfl

theorem step_leveled {lines : List LogLine} {m m' : Machine} {line : LogLine}
    (hm : Leveled lines m) (hstack : Stacked (m'.state :: m'.callers))
    (h : m.step line = .ok m') : Leveled (lines ++ [line]) m' := by
  obtain ⟨hcount, hunb⟩ := step_depth h
  obtain ⟨hidx, hpc⟩ := step_position h
  have hdepth : m'.callers.length = m'.state.frame := hstack.2.1.symm
  have hframe := hm.frame
  rw [← hm.depth] at hframe
  -- the surplus is what the depth lacks to the unbalanced exits
  have hsurplus : surplus (lines ++ [line]) = m'.unbalanced - m'.callers.length := by
    have hexits := exits_concat lines line
    have hcalls := calls_concat lines line
    unfold surplus
    omega
  refine ⟨?_, ?_, hdepth, fun k s hs => hstack.2.2.frame_of_getElem? hs, ?_, ?_⟩
  · rcases hunb with hsame | ⟨hmore, hexit, hnone⟩
    · rw [hsame] at hsurplus ⊢
      exact hm.unbalanced.concat_same (by omega)
    · simp [hexit, not_isCall_of_isExit hexit, hnone, hmore] at hcount
      rw [hmore] at hsurplus ⊢
      exact hm.unbalanced.concat_above (by omega)
  · rw [← hdepth]
    unfold surplus at hsurplus
    omega
  · rw [hidx, lastIdx_concat, hm.idx]
  · rw [hpc, lastPc_concat, hm.pc]
    cases line.instruction? with
    | none => rfl
    | some ins => rfl

/-- After a run, which is to say after any beginning of a log, the unbalanced exits are the greatest
surplus of exits so far, and the depth is the number of calls less that of exits, and of the
unbalanced exits more. -/
theorem run_leveled {setup : Setup} {lines : List LogLine} {ms : List Machine}
    (h : run setup lines = .ok ms) : Leveled lines (last (start setup) ms) := by
  induction lines using List.reverseRecOn generalizing ms with
  | nil =>
    cases h
    exact leveled_start setup
  | append_singleton lines line ih =>
    have hstack : Reachable setup (last (start setup) ms) := ⟨_, _, h, rfl⟩
    obtain ⟨first, second, hfirst, hsecond, rfl⟩ := trace_append_ok h
    obtain ⟨m', ms', hs, ht, rfl⟩ := trace_cons_ok hsecond
    cases ht
    have hlast : last (start setup) (first ++ [m']) = m' := by simp [last]
    rw [hlast] at hstack ⊢
    exact step_leveled (ih hfirst) hstack.stacked hs

/-- A log that begins inside a subprogram, and is cut off inside another. -/
def strayLog : List String :=
  ["7: (95) exit", "verifier chatter", "3: (85) call pc+5", "9: (95) exit", "4: (95) exit",
    "5: (85) call pc+3", "9: (85) call pc+1", "11: (b7) r0 = 0"]

theorem strayLog_leveled : ∃ ms, run {} (ofLog strayLog) = .ok ms ∧
    Leveled (ofLog strayLog) (last (start {}) ms) ∧
      (last (start {}) ms).unbalanced = 2 ∧ (last (start {}) ms).state.frame = 2 := by
  have hrun : run {} (ofLog strayLog) = .ok ((run {} (ofLog strayLog)).toOption.getD []) :=
    ok_of_isSome_toOption [] (by decide +kernel)
  exact ⟨_, hrun, run_leveled hrun, by decide +kernel, by decide +kernel⟩

end Machine
end VerifierTrace
