import VerifierTrace.Proofs.LogLine.Numbered
import VerifierTrace.Proofs.Machine.Run

/-!
# VerifierTrace.Proofs.Machine.Touched

What one instruction changes, and what it leaves alone.

Apart from the slots that it reads and writes, and the stack slots that its pointers lead to, an
instruction changes no more than the verifier reports behind it. Where no pointer leads to the
stack, the effect of every slot that it touches follows from its reads and writes alone.

* `State.Touched`: that, for the cells and for the writers.
* `touched_of_apply`: applying an instruction keeps to it.
* `step_touches`: so does every line that neither calls nor exits, and it fails only where the slot
  behind a pointer has no name.
-/

namespace VerifierTrace
namespace State

/-- The state `s'` differs from `s` as an instruction with facts behind it has it. -/
structure Touched (s s' : State) (idx : Int) (ins : Instruction) (exprs : List StateExpr) :
    Prop where
  /-- A slot that is neither read nor written, and to which no pointer leads, has the value that is
  reported last, or else the one before; it is unknown only if it was and nothing is reported. -/
  outside : ∀ k, k ∉ ins.reads → k ∉ ins.writes → s.stored ins exprs ≠ .ok (some k) →
    s.loaded ins exprs ≠ .ok (some k) →
      s'.values.get? k =
          ((reported? exprs k).or (s.valueOf? k)).map (fun value => ⟨value, .none, none⟩) ∧
        s'.writerOf? k = s.writerOf? k
  written : ∀ k, k ∈ ins.writes ∨ s.stored ins exprs = .ok (some k) → s'.writerOf? k = some idx
  unwritten : ∀ k, k ∉ ins.writes → s.stored ins exprs ≠ .ok (some k) →
    s'.writerOf? k = s.writerOf? k
  /-- Without a pointer to the stack, reads and writes say how a slot is touched. -/
  marked : s.stored ins exprs = .ok none → s.loaded ins exprs = .ok none →
    ∀ k, k ∈ ins.reads ∨ k ∈ ins.writes →
      s'.effectOf? k =
          some (if k ∉ ins.writes then .read else if k ∈ ins.reads then .update else .write) ∧
        s'.valueOf? k =
          some ((reported? exprs k).getD (if k ∈ ins.writes then "" else s.valueD k))

variable {s s' : State} {idx : Int} {ins : Instruction} {exprs : List StateExpr} {k : Slot}

theorem touched_of_apply (h : s.apply idx ins exprs = .ok s') : Touched s s' idx ins exprs := by
  obtain ⟨target, origin, htarget, -, -⟩ := apply_ok_iff.mp h
  have hwriter := writerOf?_apply h htarget
  have hunwritten : ∀ k, k ∉ ins.writes → s.stored ins exprs ≠ .ok (some k) →
      s'.writerOf? k = s.writerOf? k := by
    intro k hwrite hstored
    rw [hwriter, if_neg]
    rintro (hmem | rfl)
    · exact hwrite hmem
    · exact hstored htarget
  refine ⟨?_, ?_, hunwritten, ?_⟩
  · intro k hread hwrite hstored hloaded
    exact ⟨get?_apply_of_untouched h hread hwrite hstored hloaded, hunwritten k hwrite hstored⟩
  · intro k hk
    rw [hwriter, if_pos]
    refine hk.imp_right fun hstored => ?_
    rw [htarget] at hstored
    exact Except.ok.inj hstored
  · intro hstored hloaded k hk
    rw [effectOf?, valueOf?, get?_apply_of_marked h (by simp [hstored]) hloaded]
    exact ⟨effect_mark hk, value_mark hk⟩

end State

namespace Machine

open LogLine

/-- A line that neither calls nor exits can be run if and only if the stack slots behind its pointers
have names, and then it changes no more than its reads, its writes, these slots and what is reported
behind it. -/
theorem step_touches (m : Machine) {line : LogLine} {ins : Instruction} {exprs : List StateExpr}
    (hcontent : line.content = .instruction ins exprs) (hcall : line.isCall = false)
    (hexit : line.isExit = false) :
    ((∃ m', m.step line = .ok m') ↔ (∃ target, m.state.stored ins exprs = .ok target) ∧
      ∃ origin, m.state.loaded ins exprs = .ok origin) ∧
    ∀ m', m.step line = .ok m' →
      m'.callers = m.callers ∧ State.Touched m.state m'.state line.idx ins exprs := by
  have hstays : line.staysInFrame = true := by
    simp [staysInFrame, isInstruction, instruction?, hcontent, hcall, hexit]
  rw [step_of_staysInFrame m hcontent hstays]
  constructor
  · exact exists_apply_iff.trans State.exists_apply_iff
  · intro m' h
    obtain ⟨s, hs, rfl⟩ := apply_ok_iff.mp h
    exact ⟨rfl, State.touched_of_apply hs⟩

/-- A store through a pointer, behind which other slots are reported, one of them twice. -/
def crowdedLine : LogLine :=
  ofText 1 "1: (7b) *(u64 *)(r1 -8) = r2 ; R3=5 R3_w=6 fp-24=9 fp-32=1"

theorem crowdedLine_touches : ∃ (m m' : Machine) (ins : Instruction),
    Reachable {} m ∧ m.step crowdedLine = .ok m' ∧
      m.state.stored ins crowdedLine.exprs = .ok (some "fp-16") ∧
      State.Touched m.state m'.state 1 ins crowdedLine.exprs ∧
      m'.state.valueOf? "r3" = some "6" ∧ m'.state.valueOf? "fp-8" = some "4" ∧
      m'.state.valueOf? "fp-32" = some "1" ∧ m'.state.writerOf? "fp-16" = some 1 := by
  let before := [ofText 0 "0: (bf) r1 = r10 ; R1_w=fp-8 fp-8=4 fp-24=3"]
  let m := last (start {}) ((run {} before).toOption.getD [])
  let m' := (m.step crowdedLine).toOption.getD m
  let ins : Instruction := ⟨⟨.stx, 7, .register⟩, some 1,
    .compute .assign ⟨.memory .u64 ⟨1⟩ (-8), ⟨-50, 15⟩⟩ ⟨.register ⟨2⟩, ⟨-32, 2⟩⟩⟩
  have hrun : run {} before = .ok ((run {} before).toOption.getD []) :=
    ok_of_isSome_toOption [] (by decide +kernel)
  have hm : Reachable {} m := ⟨before, _, hrun, rfl⟩
  have hcontent : crowdedLine.content = .instruction ins crowdedLine.exprs := by decide +kernel
  have hstep : m.step crowdedLine = .ok m' := ok_of_isSome_toOption m (by decide +kernel)
  have htouches := step_touches m hcontent (by decide +kernel) (by decide +kernel)
  refine ⟨m, m', ins, hm, hstep, by decide +kernel, (htouches.2 m' hstep).2, by decide +kernel⟩

end Machine
end VerifierTrace
