import VerifierTrace.Proofs.Analysis.Pass
import VerifierTrace.Proofs.Machine.Reported

/-!
# VerifierTrace.Proofs.Analysis.Reported

What the verifier reports reaches the states of a pass.

Facts behind an instruction and facts on lines of their own come together at the instruction, and
the last one for a slot counts. After the instruction, and up to the next one, the slot has that
value (`reported_value`). Exits are the exception: they lose what is reported for them.
-/

namespace VerifierTrace

theorem Instruction.isExit_assuming (name? : Option String) (ins : Instruction) :
    (ins.assuming name?).action = .exit ↔ ins.action = .exit := by
  unfold assuming
  split
  · next haction => simp [haction]
  · rfl

namespace LogLine

theorem isExit_iff {l : LogLine} {ins : Instruction} {exprs : List StateExpr}
    (h : l.content = .instruction ins exprs) : l.isExit = true ↔ ins.action = .exit := by
  obtain ⟨opcode, pc, action⟩ := ins
  rw [isExit, instruction?, h]
  cases action <;> simp

theorem isExit_settledBy (config : Config) (line : LogLine) (rest : List LogLine) :
    (line.settledBy config rest).isExit = line.isExit := by
  cases h : line.isInstruction with
  | false => rw [Notice.settledBy_of_not_isInstruction config h]
  | true =>
    obtain ⟨ins, exprs, hcontent⟩ := content_of_isInstruction h
    have hsettled : (line.settledBy config rest).content =
        .instruction (ins.assuming (Notice.nameAhead? config rest))
          (exprs ++ Notice.factsAhead config rest) := by
      rw [settledBy, hcontent]
      rfl
    rw [Bool.eq_iff_iff, isExit_iff hsettled, isExit_iff hcontent, Instruction.isExit_assuming]

end LogLine

namespace Analysis

variable {config : Config} {raws : List String} {a : Analysis} {read : List LogLine}

/-- Where facts are merged, the value that is reported last for a slot, behind an instruction or on
the lines up to the next one, is the value of the slot on all these lines, unless the instruction is
an exit or the value is empty. -/
theorem reported_value (h : run config raws = .ok a) (hread : readLines raws = .ok read)
    (hmerge : config.mergeBlocks = true) {i : Nat} {line : LogLine} (hline : read[i]? = some line)
    (hins : line.isInstruction = true) (hexit : line.isExit = false) {slot : Slot} {value : String}
    (hvalue : reported? (line.exprs ++ Notice.blocksAhead (read.drop (i + 1))) slot = some value)
    (hknown : value ≠ "") {j : Nat} (hij : i ≤ j) (hj : j < read.length)
    (hquiet : ∀ k l, i < k → k ≤ j → read[k]? = some l → l.isInstruction = false) :
    ∃ s, a.states[j]? = some s ∧ s.valueD slot = value := by
  obtain ⟨read', hread', hlines, hrun⟩ := run_ok h
  rw [hread] at hread'
  cases hread'
  have hsettled : ∀ k, a.lines[k]? =
      read[k]?.map fun l : LogLine => l.settledBy config (read.drop (k + 1)) := by
    intro k
    rw [hlines, Notice.getElem?_settled]
  have hlen : a.machines.length = read.length := by
    rw [Machine.length_trace hrun, hlines, Notice.length_settled]
  have hmachine : a.machines[j]? = some a.machines[j] := List.getElem?_eq_getElem (by omega)
  have hquiet' : ∀ k l, i < k → k ≤ j → a.lines[k]? = some l → l.isInstruction = false := by
    intro k l hik hkj hl
    rw [hsettled] at hl
    obtain ⟨l', hl', rfl⟩ := Option.map_eq_some_iff.mp hl
    rw [LogLine.isInstruction_settledBy]
    exact hquiet k l' hik hkj hl'
  have hshows := Machine.trace_shows hrun (by rw [hsettled, hline]; rfl)
    (by rw [LogLine.isInstruction_settledBy, hins])
    (by rw [LogLine.isExit_settledBy, hexit]) hij hquiet' hmachine
  rw [LogLine.exprs_settledBy _ _ _ hins, Notice.factsAhead, if_pos hmerge] at hshows
  refine ⟨a.machines[j].state, ?_, ?_⟩
  · rw [states, List.getElem?_map, hmachine, Option.map_some]
  · rw [State.valueD, State.valueOf?, hshows slot value hvalue hknown, Option.getD_some]

/-- A call that is folded, with facts behind it and on two lines of their own. -/
def reportingLog : List String :=
  ["0: (85) call pc+3 ; R0_w=1", "Func#1 ('f') is global and assumed valid.", "1: R0=2 fp-8=3",
    "; x = f(); @ a.c:7", "1: R0=scalar()", "1: (bf) r6 = r0"]

theorem reportingLog_value : ∃ a, run {} reportingLog = .ok a ∧
    ∃ s, a.states[4]? = some s ∧ s.valueD "r0" = "scalar()" := by
  have hread : readLines reportingLog = .ok (LogLine.ofLog reportingLog) :=
    Machine.ok_of_isSome_toOption [] (by decide +kernel)
  have hrun : run {} reportingLog = .ok (ofLog {} reportingLog) := run_ofLog (by decide +kernel)
  have hline : (LogLine.ofLog reportingLog)[0]? =
      some (LogLine.ofText 0 "0: (85) call pc+3 ; R0_w=1") := by decide +kernel
  exact ⟨_, hrun, reported_value hrun hread rfl hline (by decide +kernel) (by decide +kernel)
    (by decide +kernel) (by decide) (by decide) (by decide +kernel) (by
      intro k l hk hk' hl
      have hall : ∀ k : Fin 5, 0 < k.val →
          ∀ l ∈ (LogLine.ofLog reportingLog)[k.val]?, l.isInstruction = false := by decide +kernel
      exact hall ⟨k, by omega⟩ hk l hl)⟩

/-- A subprogram whose exit is followed by facts on a line of their own. -/
def exitingLog : List String :=
  ["0: (85) call pc+1", "2: (b7) r0 = 1", "3: (95) exit", "1: R0=1 R6=7", "1: (bf) r7 = r0"]

/-- Behind an exit the value that is reported for `r0` does not show, nor on the line that reports
it. -/
theorem exitingLog_value :
    ((LogLine.ofLog exitingLog)[2]?.map fun line =>
        reported? (line.exprs ++ Notice.blocksAhead ((LogLine.ofLog exitingLog).drop 3)) "r0") =
      some (some "1") ∧
    (run {} exitingLog).map (fun a => (a.states.drop 2).map fun s => s.valueD "r0") =
      .ok ["", "", ""] := by
  decide +kernel

end Analysis
end VerifierTrace
