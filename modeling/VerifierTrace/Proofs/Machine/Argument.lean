import VerifierTrace.Proofs.Machine.Access

/-!
# VerifierTrace.Proofs.Machine.Argument

Pointers to the stack that are passed to a subprogram.

An argument keeps its text on the way into the callee, and a store through it takes that text as it
reads in the callee's frame. A pointer that names its frame, as `fp[0]-8`, denotes the same slot on
both sides (`store_through_argument`). One that names none, as `fp-8`, denotes a slot of the frame
at hand, so what the callee stores through it lands in the callee's own frame and is gone after the
return (`store_through_unframed_argument`, `argumentLog_lost`).
-/

namespace VerifierTrace
namespace Machine

open LogLine

section Argument

variable {setup : Setup} {m m₁ m₂ : Machine} {call store : LogLine} {r : Register}
  {opcode : Opcode} {pc : Option Nat} {width : Width} {d : Int} {src : Operand.Form}
  {e e' : Extent} {l : Slot.Location}

/-- A call behind which nothing is reported, and a store through an argument in the callee. -/
theorem stored_through_argument (hr : r ∈ Register.scratch)
    (hvalue : Slot.location (m.state.valueD r.slot) = .ok (some l)) (hcall : call.isCall = true)
    (hquiet : call.exprs = [])
    (hstore : store.content =
      .instruction ⟨opcode, pc, .compute .assign ⟨.memory width r d, e⟩ ⟨src, e'⟩⟩ [])
    (hsrc : src.address? = none) (h₁ : m.step call = .ok m₁) (h₂ : m₁.step store = .ok m₂) :
    (∃ ins, State.enter m.setup m.state call.idx ins [] = .ok m₁.state) ∧
      m₂.callers = m.state :: m.callers ∧
      State.Stored m₁.state m₂.state store.idx
        (Slot.ofFrame (l.frame.getD (m.state.frame + 1) : Nat) (l.offset + d)
          (m.state.frame + 1 : Nat)) := by
  obtain ⟨ins, s, henter, rfl⟩ :
      ∃ ins s, State.enter m.setup m.state call.idx ins [] = .ok s ∧
        m₁ = { m with state := s, callers := m.state :: m.callers } := by
    cases transition_of_step h₁ with
    | rest hnone => simp [isCall, hnone] at hcall
    | apply _ hstays => simp [staysInFrame, hcall] at hstays
    | call hcontent _ hs =>
      rw [LogLine.exprs, hcontent] at hquiet
      subst hquiet
      exact ⟨_, _, hs, rfl⟩
    | leave _ hexit => rw [not_isExit_of_isCall hcall] at hexit; cases hexit
    | restart _ hexit => rw [not_isExit_of_isCall hcall] at hexit; cases hexit
  have hframe : s.frame = m.state.frame + 1 := by rw [State.enter_ok henter]
  have hargument : s.valueD r.slot = m.state.valueD r.slot :=
    State.valueD_enter_argument henter hr rfl
  have hpointer : (Operand.Form.memory width r d).pointer? = some (r, d) := by
    have hne : ∀ r ∈ Register.scratch, r ≠ Register.framePointer := by decide
    simp [Operand.Form.pointer?, Operand.Form.address?, hne r hr]
  obtain ⟨ins', hassigned, hstep⟩ := step_of_assigns ⟨_, _, _, _, hstore⟩
  rw [hstep] at h₂
  obtain ⟨s₂, hs₂, rfl⟩ := apply_ok_iff.mp h₂
  obtain ⟨hstored, -⟩ := State.stored_of_apply hassigned hpointer hsrc
    (by rw [hargument]; exact hvalue) rfl (by simp) hs₂
  rw [hframe] at hstored
  exact ⟨⟨ins, henter⟩, rfl, hstored⟩

/-- A pointer argument that names its frame denotes the same slot in the callee: what the callee
stores through it is written to that slot and to none of its own frame, and after the return the
caller's slot has the store as its writer. -/
theorem store_through_argument {owner : Nat} {offset : Int} (hm : Reachable setup m)
    (hr : r ∈ Register.scratch)
    (hvalue : Slot.location (m.state.valueD r.slot) = .ok (some ⟨some owner, offset⟩))
    (howner : owner ≤ m.state.frame) (hcall : call.isCall = true) (hquiet : call.exprs = [])
    (hstore : store.content =
      .instruction ⟨opcode, pc, .compute .assign ⟨.memory width r d, e⟩ ⟨src, e'⟩⟩ [])
    (hsrc : src.address? = none) (h₁ : m.step call = .ok m₁) (h₂ : m₁.step store = .ok m₂) :
    m₂.state.frame = m.state.frame + 1 ∧
      m₂.state.effectOf? (Slot.ofFrame owner (offset + d) (m.state.frame + 1 : Nat)) =
        some .write ∧
      m₂.state.writerOf? (Slot.ofFrame owner (offset + d) (m.state.frame + 1 : Nat)) =
        some store.idx ∧
      (∀ k z, Slot.site (m.state.frame + 1) k = .stack (m.state.frame + 1) z →
        (∀ effect, m₂.state.effectOf? k = some effect → effect = .none) ∧
          m₂.state.writerOf? k = m₁.state.writerOf? k) ∧
      ∀ exit m₃, exit.isExit = true → m₂.step exit = .ok m₃ →
        m₃.state.writerOf? (Slot.ofFrame owner (offset + d) m.state.frame) = some store.idx := by
  obtain ⟨⟨ins, henter⟩, hcallers, hstored⟩ :=
    stored_through_argument hr hvalue hcall hquiet hstore hsrc h₁ h₂
  have hstack := step_stacked h₂ (step_stacked h₁ hm.stacked)
  have hframe : m₂.state.frame = m.state.frame + 1 := by
    rw [hstored.frame, State.enter_ok henter]
  simp only [Option.getD_some] at hstored
  refine ⟨hframe, hstored.effect, hstored.writer, ?_, ?_⟩
  · intro k z hsite
    have hne : k ≠ Slot.ofFrame owner (offset + d) (m.state.frame + 1 : Nat) := by
      rintro rfl
      rw [Slot.site_ofFrame] at hsite
      cases hsite
      omega
    have hsome : (Slot.stackLocation? k).isSome := by
      cases hk : Slot.stackLocation? k with
      | none => rw [Slot.site_of_none hk] at hsite; cases hsite
      | some l => rfl
    obtain ⟨hcell, hwriter⟩ := hstored.others k hne hsome
    refine ⟨?_, hwriter⟩
    intro effect heffect
    rw [State.effectOf?, hcell] at heffect
    cases hk : m₁.state.values.get? k with
    | none => rw [hk] at heffect; cases heffect
    | some c => rw [hk] at heffect; cases heffect; rfl
  · intro exit m₃ hexit h₃
    obtain ⟨ins', s, hleave, rfl⟩ := step_of_isExit hexit hcallers h₃
    rw [State.writerOf?_leave_stack hstack.1 hframe hleave howner, hframe, hstored.writer]
    rfl

/-- A store behind the first argument. -/
def storingLine : LogLine := ofText 2 "7: (7b) *(u64 *)(r1 -8) = r3"

/-- From frame 1, a pointer to the stack of frame 0 goes along into frame 2. -/
theorem storingLine_through_argument : ∃ m m₁ m₂ m₃ : Machine,
    Reachable {} m ∧ m.state.frame = 1 ∧ m.state.valueD "r1" = "fp[0]-64" ∧
      ofText 2 "7: (7b) *(u64 *)(r1 -8) = r3" = storingLine ∧
      m.step (ofText 1 "4: (85) call pc+2") = .ok m₁ ∧ m₁.step storingLine = .ok m₂ ∧
      m₂.step (ofText 3 "8: (95) exit") = .ok m₃ ∧
      m₂.state.effectOf? (Slot.ofFrame 0 (-64 + -8) 2) = some .write ∧
      m₂.state.writerOf? (Slot.ofFrame 0 (-64 + -8) 2) = some 2 ∧
      m₃.state.writerOf? (Slot.ofFrame 0 (-64 + -8) 1) = some 2 := by
  let before := [ofText 0 "0: (85) call pc+3 ; R1=fp[0]-64"]
  let m := last (start {}) ((run {} before).toOption.getD [])
  let m₁ := (m.step (ofText 1 "4: (85) call pc+2")).toOption.getD m
  let m₂ := (m₁.step storingLine).toOption.getD m
  let m₃ := (m₂.step (ofText 3 "8: (95) exit")).toOption.getD m
  have hrun : run {} before = .ok ((run {} before).toOption.getD []) :=
    ok_of_isSome_toOption [] (by decide +kernel)
  have hm : Reachable {} m := ⟨before, _, hrun, rfl⟩
  have hframe : m.state.frame = 1 := by decide +kernel
  have h₁ : m.step (ofText 1 "4: (85) call pc+2") = .ok m₁ :=
    ok_of_isSome_toOption m (by decide +kernel)
  have h₂ : m₁.step storingLine = .ok m₂ := ok_of_isSome_toOption m (by decide +kernel)
  have h₃ : m₂.step (ofText 3 "8: (95) exit") = .ok m₃ :=
    ok_of_isSome_toOption m (by decide +kernel)
  have hvalue : Slot.location (m.state.valueD (Register.slot ⟨1⟩)) = .ok (some ⟨some 0, -64⟩) := by
    decide +kernel
  have hcontent : storingLine.content = .instruction ⟨⟨.stx, 7, .register⟩, some 7,
      .compute .assign ⟨.memory .u64 ⟨1⟩ (-8), ⟨-20, 15⟩⟩ ⟨.register ⟨3⟩, ⟨-2, 2⟩⟩⟩ [] := by
    decide +kernel
  have hstored := store_through_argument hm (by decide) hvalue (by rw [hframe]; decide)
    (by decide +kernel) (by decide +kernel) hcontent rfl h₁ h₂
  rw [hframe] at hstored
  obtain ⟨-, heffect, hwriter, -, hexit⟩ := hstored
  exact ⟨m, m₁, m₂, m₃, hm, hframe, by decide +kernel, by decide +kernel, h₁, h₂, h₃, heffect,
    hwriter, hexit _ m₃ (by decide +kernel) h₃⟩

/-- A pointer argument that names no frame denotes a slot of whatever frame is at hand: what the
callee stores through it is written to its own frame, and the return leaves the caller's stack
slots with the writers that they had before the call. -/
theorem store_through_unframed_argument {offset : Int} (hm : Reachable setup m)
    (hr : r ∈ Register.scratch)
    (hvalue : Slot.location (m.state.valueD r.slot) = .ok (some ⟨none, offset⟩))
    (hcall : call.isCall = true) (hquiet : call.exprs = [])
    (hstore : store.content =
      .instruction ⟨opcode, pc, .compute .assign ⟨.memory width r d, e⟩ ⟨src, e'⟩⟩ [])
    (hsrc : src.address? = none) (h₁ : m.step call = .ok m₁) (h₂ : m₁.step store = .ok m₂) :
    m₂.state.effectOf? (Slot.stack (offset + d)) = some .write ∧
      m₂.state.writerOf? (Slot.stack (offset + d)) = some store.idx ∧
      ∀ exit m₃, exit.isExit = true → m₂.step exit = .ok m₃ →
        ∀ (owner : Nat) (z : Int), owner ≤ m.state.frame →
          m₃.state.writerOf? (Slot.ofFrame owner z m.state.frame) =
            m.state.writerOf? (Slot.ofFrame owner z m.state.frame) := by
  obtain ⟨⟨ins, henter⟩, hcallers, hstored⟩ :=
    stored_through_argument hr hvalue hcall hquiet hstore hsrc h₁ h₂
  have hstack := step_stacked h₂ (step_stacked h₁ hm.stacked)
  have hframe : m₂.state.frame = m.state.frame + 1 := by
    rw [hstored.frame, State.enter_ok henter]
  simp only [Option.getD_none, Slot.ofFrame_self] at hstored
  refine ⟨hstored.effect, hstored.writer, ?_⟩
  intro exit m₃ hexit h₃ owner z howner
  obtain ⟨ins', s, hleave, rfl⟩ := step_of_isExit hexit hcallers h₃
  have hne : Slot.ofFrame owner z (m.state.frame + 1 : Nat) ≠ Slot.stack (offset + d) := by
    intro heq
    rw [← Slot.ofFrame_self (m.state.frame + 1)] at heq
    have hsite := congrArg (Slot.site (m.state.frame + 1)) heq
    rw [Slot.site_ofFrame, Slot.site_ofFrame] at hsite
    cases hsite
    omega
  have hsome : (Slot.stackLocation? (Slot.ofFrame owner z (m.state.frame + 1 : Nat))).isSome := by
    rw [Slot.stackLocation?_ofFrame]
    rfl
  obtain ⟨-, hwriter⟩ := hstored.others _ hne hsome
  rw [State.writerOf?_leave_stack hstack.1 hframe hleave howner, hframe, hwriter,
    State.writerOf?_enter_stack hm.stacked.1 henter, Option.or_self]

end Argument

/-- A caller that passes a pointer to its own stack, as the verifier prints it in that frame, and a
callee that stores through it. -/
def argumentLog : List String :=
  ["0: (bf) r1 = r10 ; R1_w=fp0", "1: (07) r1 += -8 ; R1_w=fp-8"]

/-- The store goes to the callee's own stack, and the caller's slot never has it as its writer. -/
theorem argumentLog_lost : ∃ m m₁ m₂ m₃ : Machine,
    Reachable {} m ∧ m.state.frame = 0 ∧
      Slot.location (m.state.valueD "r1") = .ok (some ⟨none, -8⟩) ∧
      m.step (ofText 2 "2: (85) call pc+3") = .ok m₁ ∧
      m₁.step (ofText 3 "6: (7b) *(u64 *)(r1 +0) = r2") = .ok m₂ ∧
      m₂.step (ofText 4 "7: (95) exit") = .ok m₃ ∧
      m₂.state.effectOf? (Slot.ofFrame 0 (-8 + 0) 1) = none ∧
      m₂.state.writerOf? (Slot.ofFrame 0 (-8 + 0) 1) = none ∧
      m₂.state.effectOf? (Slot.ofFrame 1 (-8 + 0) 1) = some .write ∧
      m₃.state.writerOf? (Slot.ofFrame 0 (-8 + 0) 0) = none := by
  let m := last (start {}) ((run {} (ofLog argumentLog)).toOption.getD [])
  let m₁ := (m.step (ofText 2 "2: (85) call pc+3")).toOption.getD m
  let m₂ := (m₁.step (ofText 3 "6: (7b) *(u64 *)(r1 +0) = r2")).toOption.getD m
  let m₃ := (m₂.step (ofText 4 "7: (95) exit")).toOption.getD m
  have hrun : run {} (ofLog argumentLog) = .ok ((run {} (ofLog argumentLog)).toOption.getD []) :=
    ok_of_isSome_toOption [] (by decide +kernel)
  have hshape : m.state.frame = 0 ∧
      Slot.location (m.state.valueD "r1") = .ok (some ⟨none, -8⟩) := by decide +kernel
  have h₁ : m.step (ofText 2 "2: (85) call pc+3") = .ok m₁ :=
    ok_of_isSome_toOption m (by decide +kernel)
  have h₂ : m₁.step (ofText 3 "6: (7b) *(u64 *)(r1 +0) = r2") = .ok m₂ :=
    ok_of_isSome_toOption m (by decide +kernel)
  have h₃ : m₂.step (ofText 4 "7: (95) exit") = .ok m₃ :=
    ok_of_isSome_toOption m (by decide +kernel)
  exact ⟨m, m₁, m₂, m₃, ⟨_, _, hrun, rfl⟩, hshape.1, hshape.2, h₁, h₂, h₃, by decide +kernel⟩

end Machine
end VerifierTrace
