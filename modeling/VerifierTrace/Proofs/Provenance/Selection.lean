import VerifierTrace.Proofs.Analysis.Pass

/-!
# VerifierTrace.Proofs.Provenance.Selection

A line that is picked by the slot it copies to.

The selection asks for the slot that the line copies from instead. What is left out that way is the
line and nothing else: the line is the last writer of the slot it copies to, and does not update it
in place (`written_of_soleRead`), so it comes first in the trace of that slot; and the trace of the
slot that it copies from never comes back to it.

* `retarget_eq_of_ne`: the lines whose selections ask for another slot.
* `reported_of_copy`: the trace of what such a line writes.
* `selection_drops`: the same for any pass.
-/

namespace VerifierTrace

theorem LogLine.staysInFrame_of_soleRead? {line : LogLine} {ins : Instruction} {source : Slot}
    (hins : line.instruction? = some ins) (hsole : ins.soleRead? = some source) :
    line.staysInFrame = true := by
  obtain ⟨opcode, pc, action⟩ := ins
  cases action with
  | exit | callSubprogram => cases hsole
  | compute | cast | goto | branch | callHelper =>
    simp [staysInFrame, isInstruction, isCall, isExit, hins]

namespace State

variable {s s' : State} {idx : Int} {ins : Instruction} {exprs : List StateExpr} {k source : Slot}

/-- An instruction that reads one slot only sets what else it writes, even if it also stores through
a pointer. -/
theorem written_of_soleRead (h : s.apply idx ins exprs = .ok s')
    (hsole : ins.soleRead? = some source) (hwrite : k ∈ ins.writes) (hread : k ∉ ins.reads) :
    s'.writerOf? k = some idx ∧ s'.effectOf? k = some .write := by
  obtain ⟨target, origin, htarget, -, -⟩ := apply_ok_iff.mp h
  constructor
  · rw [writerOf?_apply h htarget, if_pos (.inl hwrite)]
  · have hloaded : s.loaded ins exprs = .ok none := loaded_of_soleRead hsole
    by_cases hk : target = some k
    · subst hk
      cases hassigned : ins.action.assigned? with
      | none =>
        rw [stored, hassigned] at htarget
        cases htarget
      | some p =>
        rw [effectOf?, get?_apply_stored h hassigned htarget hloaded]
        rfl
    · have hstored : s.stored ins exprs ≠ .ok (some k) := by
        rw [htarget]
        simpa using hk
      rw [effectOf?, get?_apply_of_marked h hstored hloaded, effect_mark (.inr hwrite),
        if_neg (not_not_intro hwrite), if_neg hread]

end State

namespace Machine

theorem written_of_states {setup : Setup} {lines : List LogLine} {states : List State}
    (hn : LogLine.Numbered lines) (h : Machine.states setup lines = .ok states) {i : Nat}
    {line : LogLine} {ins : Instruction} {s : State} {k source : Slot}
    (hline : lines[i]? = some line) (hins : line.instruction? = some ins)
    (hs : states[i]? = some s) (hsole : ins.soleRead? = some source) (hwrite : k ∈ ins.writes)
    (hread : k ∉ ins.reads) :
    s.writerOf? k = some (i : Int) ∧ s.effectOf? k = some .write := by
  obtain ⟨m, m', hstep, rfl⟩ := step_of_states h hs hline
  have hstays := LogLine.staysInFrame_of_soleRead? hins hsole
  simp only [LogLine.staysInFrame, Bool.and_eq_true, Bool.not_eq_true'] at hstays
  cases transition_of_step hstep with
  | rest hnone => rw [hnone] at hins; cases hins
  | apply hcontent _ happly =>
    rw [LogLine.instruction?, hcontent] at hins
    cases hins
    rw [hn i line hline] at happly
    exact State.written_of_soleRead happly hsole hwrite hread
  | call _ hcall => rw [hstays.1.2] at hcall; cases hcall
  | leave _ hexit => rw [hstays.2] at hexit; cases hexit
  | restart _ hexit => rw [hstays.2] at hexit; cases hexit

end Machine

namespace History

variable {h : History} {idx : Int} {slot source : Slot}

/-- A selection asks for another slot if the line writes the slot at hand, does not read it, and
reads that other slot alone. -/
theorem retarget_eq_of_ne (hother : h.retarget idx slot ≠ slot) :
    ∃ ins, h.instructionAt? idx = some ins ∧ slot ∈ ins.writes ∧ slot ∉ ins.reads ∧
      ins.soleRead? = some (h.retarget idx slot) := by
  cases hins : h.instructionAt? idx with
  | none => exact absurd (by rw [retarget, hins]) hother
  | some ins =>
    have hretarget : h.retarget idx slot =
        if slot ∈ ins.writes ∧ slot ∉ ins.reads then ins.soleRead?.getD slot else slot := by
      rw [retarget, hins]
    by_cases hwritten : slot ∈ ins.writes ∧ slot ∉ ins.reads
    · rw [if_pos hwritten] at hretarget
      cases hsole : ins.soleRead? with
      | none =>
        rw [hsole] at hretarget
        exact absurd hretarget hother
      | some source =>
        rw [hsole] at hretarget
        exact ⟨ins, rfl, hwritten.1, hwritten.2, by rw [hretarget]; exact hsole⟩
    · exact absurd (hretarget.trans (if_neg hwritten)) hother

/-- What a line copies comes from the line and from where the slot that it copies from comes from,
which is not the line itself. -/
theorem reported_of_copy (hg : h.Grounded) (hsole : h.soleReadAt? idx = some source)
    (hwriter : h.writerAt? idx slot = some idx) (heffect : h.effectAt? idx slot ≠ some .update) :
    h.reported (idx, slot) = {idx} ∪ h.reported (idx, source) ∧
      idx ∉ h.reported (idx, source) := by
  obtain ⟨ins, hins, -⟩ := Option.bind_eq_some_iff.mp hsole
  constructor
  · have horigin : h.origin? (idx, slot) = some ⟨idx, some (idx, source)⟩ := by
      simp only [origin?, hins, hwriter, heffect, and_false, if_false, hsole, Option.map_some]
    rw [reported_eq hg, recursion, horigin]
    rfl
  · intro hself
    obtain ⟨hcopied, hkept⟩ := (self_mem_reported_iff hg idx source).mp hself
    exact hkept (hg.inPlace idx source hsole hcopied)

end History

namespace Analysis

variable {config : Config} {raws : List String} {a : Analysis}

/-- In any pass, where a line is picked by a slot and another one is asked for, the selection leaves
out the line, and nothing but the line. -/
theorem selection_drops (hrun : run config raws = .ok a) (idx : Int) (slot : Slot)
    (hother : a.retarget idx slot ≠ slot) :
    (a.dependencies idx slot).toFinset = {idx} ∪ (a.selection idx slot).toFinset ∧
      idx ∉ a.selection idx slot := by
  obtain ⟨ins, hins, hwrite, hread, hsole⟩ := History.retarget_eq_of_ne hother
  obtain ⟨i, line, rfl, hline, hl⟩ := History.instructionAt?_eq_some hins
  obtain ⟨-, -, -, hmachines⟩ := run_ok hrun
  have hstates : Machine.states config.setup a.lines = .ok a.states := by
    rw [Machine.states, hmachines]
    rfl
  have hlength : a.states.length = a.lines.length := by
    rw [states, List.length_map, Machine.length_trace hmachines]
  have hi : i < a.states.length := hlength ▸ (List.getElem?_eq_some_iff.mp hline).1
  have hs : a.states[i]? = some a.states[i] := List.getElem?_eq_getElem hi
  obtain ⟨hwriter, heffect⟩ :=
    Machine.written_of_states (numbered_of_run hrun) hstates hline hl hs hsole hwrite hread
  have hat : a.history.stateAt? i = some a.states[i] := (History.at?_natCast _ i).trans hs
  have hsoleAt : a.history.soleReadAt? i = some (a.retarget i slot) := by
    rw [History.soleReadAt?, hins]
    exact hsole
  have hwriterAt : a.history.writerAt? i slot = some (i : Int) := by
    rw [History.writerAt?, hat]
    exact hwriter
  have heffectAt : a.history.effectAt? i slot ≠ some .update := by
    rw [History.effectAt?, hat, Option.bind_some, heffect]
    simp
  obtain ⟨hcopy, hself⟩ :=
    History.reported_of_copy (grounded_of_run hrun) hsoleAt hwriterAt heffectAt
  exact ⟨hcopy, fun hmem => hself (List.mem_toFinset.mpr hmem)⟩

/-- A store of a constant through a stack pointer: picked by the memory that it writes, it is asked
for the pointer. -/
def pickingLog : List String :=
  ["0: (bf) r1 = r10", "1: (07) r1 += -8 ; R1_w=fp-8", "2: (7a) *(u64 *)(r1 +0) = 5"]

theorem pickingLog_drops : ∃ a, run {} pickingLog = .ok a ∧
    (a.retarget 2 "MEM" = "r1" ∧ a.dependencies 2 "MEM" = [2, 1, 0] ∧
      a.selection 2 "MEM" = [1, 0]) ∧
    (a.dependencies 2 "MEM").toFinset = {2} ∪ (a.selection 2 "MEM").toFinset ∧
      2 ∉ a.selection 2 "MEM" := by
  have hrun : run {} pickingLog = .ok (ofLog {} pickingLog) := run_ofLog (by decide +kernel)
  exact ⟨_, hrun, by decide +kernel, selection_drops hrun 2 "MEM" (by decide +kernel)⟩

end Analysis
end VerifierTrace
