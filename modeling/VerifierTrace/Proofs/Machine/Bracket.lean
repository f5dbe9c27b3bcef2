import Mathlib.Data.List.Infix
import VerifierTrace.Proofs.LogLine.Numbered
import VerifierTrace.Proofs.Machine.Run

/-!
# VerifierTrace.Proofs.Machine.Bracket

A call, a balanced body, and the exit that closes it.

While a body runs, the states saved below it are not looked at: `trace_above` says that they are
still there afterwards, and how many calls are open above them. So the exit behind a balanced body
comes back to the very state that the call saved, and `Bracketed` lists what is left of the callee:

* the result in `r0`, and nothing in the argument registers;
* the stack slots of the frames that go on, where a writer is known in the callee;
* everything else is as it was before the call.
-/

namespace VerifierTrace
namespace LogLine

def calls (lines : List LogLine) : Nat := lines.countP isCall

def exits (lines : List LogLine) : Nat := lines.countP isExit

/-- Calls and exits match: none of the exits leaves a frame that was open before. -/
def Balanced (lines : List LogLine) : Prop :=
  (∀ pre, pre <+: lines → exits pre ≤ calls pre) ∧ calls lines = exits lines

instance (lines : List LogLine) : Decidable (Balanced lines) :=
  decidable_of_iff ((∀ pre ∈ lines.inits, exits pre ≤ calls pre) ∧ calls lines = exits lines)
    (by simp only [Balanced, List.mem_inits])

theorem exits_cons (l : LogLine) (lines : List LogLine) :
    exits (l :: lines) = exits lines + if l.isExit then 1 else 0 := List.countP_cons

theorem calls_cons (l : LogLine) (lines : List LogLine) :
    calls (l :: lines) = calls lines + if l.isCall then 1 else 0 := List.countP_cons

end LogLine

namespace Machine

open LogLine

/-- A property of states that goes on from line to line, into called frames, and from a caller to
the state in which it goes on. -/
structure Inherited (Q : State → Prop) : Prop where
  rest : ∀ s, Q s → Q s.rest
  apply : ∀ {s s' : State} {idx : Int} {ins : Instruction} {exprs : List StateExpr},
    Q s → s.apply idx ins exprs = .ok s' → Q s'
  enter : ∀ {setup : Setup} {caller s : State} {idx : Int} {ins : Instruction}
    {exprs : List StateExpr}, caller.Tidy → Q caller →
    State.enter setup caller idx ins exprs = .ok s → Q s
  leave : ∀ {caller inner s : State} {idx : Int} {ins : Instruction}, caller.Tidy → inner.Tidy →
    inner.frame = caller.frame + 1 → Q caller → State.leave caller inner idx ins = .ok s → Q s

/-- One line of a body, run above the saved states `base` with the calls `inner` open. -/
theorem step_above {Q : State → Prop} (hQ : Inherited Q) {m m' : Machine} {line : LogLine}
    {inner base : List State} (h : m.step line = .ok m') (hm : m.callers = inner ++ base)
    (hstack : Stacked (m.state :: m.callers)) (hq : ∀ s ∈ m.state :: inner, Q s)
    (hopen : line.isExit = true → inner ≠ []) :
    ∃ inner', m'.callers = inner' ++ base ∧ m'.unbalanced = m.unbalanced ∧
      inner'.length + (if line.isExit then 1 else 0) =
        inner.length + (if line.isCall then 1 else 0) ∧ ∀ s ∈ m'.state :: inner', Q s := by
  have hstate : Q m.state := hq m.state List.mem_cons_self
  have hinner : ∀ s ∈ inner, Q s := fun s hs => hq s (List.mem_cons_of_mem _ hs)
  cases transition_of_step h with
  | rest hnone =>
    refine ⟨inner, hm, rfl, by simp [isExit, isCall, hnone], ?_⟩
    intro s hs
    rcases List.mem_cons.mp hs with rfl | hs
    · exact hQ.rest _ hstate
    · exact hinner s hs
  | apply _ hstays hs =>
    simp only [staysInFrame, Bool.and_eq_true, Bool.not_eq_true'] at hstays
    refine ⟨inner, hm, rfl, by simp [hstays.2, hstays.1.2], ?_⟩
    intro s hs'
    rcases List.mem_cons.mp hs' with rfl | hs'
    · exact hQ.apply hstate hs
    · exact hinner s hs'
  | call _ hcall hs =>
    have hexit := not_isExit_of_isCall hcall
    refine ⟨m.state :: inner, by simp [hm], rfl, by simp [hcall, hexit], ?_⟩
    intro s hs'
    rcases List.mem_cons.mp hs' with rfl | hs'
    · exact hQ.enter hstack.1 hstate hs
    · exact hq s hs'
  | @leave ins exprs caller s more _ hexit hcallers hs =>
    cases inner with
    | nil => exact absurd rfl (hopen hexit)
    | cons c inner =>
      rw [hcallers] at hm hstack
      simp only [List.cons_append, List.cons.injEq] at hm
      obtain ⟨rfl, hmore⟩ := hm
      refine ⟨inner, hmore, rfl, by simp [hexit, not_isCall_of_isExit hexit], ?_⟩
      intro s' hs'
      rcases List.mem_cons.mp hs' with rfl | hs'
      · have hframe : m.state.frame = caller.frame + 1 := by
          rw [hstack.2.1, hstack.2.2.2.1]
          simp
        exact hQ.leave hstack.2.2.1 hstack.1 hframe (hinner caller List.mem_cons_self) hs
      · exact hinner s' (List.mem_cons_of_mem _ hs')
  | restart _ hexit hcallers =>
    rw [hcallers] at hm
    exact absurd (List.append_eq_nil_iff.mp hm.symm).1 (hopen hexit)

/-- A body that never exits below `base` leaves the states saved there alone. -/
theorem trace_above {Q : State → Prop} (hQ : Inherited Q) {m : Machine} {body : List LogLine}
    {ms : List Machine} {inner base : List State} (h : m.trace body = .ok ms)
    (hm : m.callers = inner ++ base) (hstack : Stacked (m.state :: m.callers))
    (hq : ∀ s ∈ m.state :: inner, Q s)
    (hopen : ∀ pre, pre <+: body → exits pre ≤ inner.length + calls pre) :
    ∃ inner', (last m ms).callers = inner' ++ base ∧ (last m ms).unbalanced = m.unbalanced ∧
      inner'.length + exits body = inner.length + calls body ∧
      ∀ s ∈ (last m ms).state :: inner', Q s := by
  induction body generalizing m ms inner with
  | nil =>
    cases h
    exact ⟨inner, hm, rfl, rfl, hq⟩
  | cons line more ih =>
    obtain ⟨m', ms', hs, ht, rfl⟩ := trace_cons_ok h
    have hline : line.isExit = true → inner ≠ [] := by
      rintro hexit rfl
      have hone := hopen [line] (List.cons_prefix_cons.mpr ⟨rfl, List.nil_prefix⟩)
      simp [exits, calls, hexit, not_isCall_of_isExit hexit] at hone
    obtain ⟨inner₁, hcallers, hunb, hlen, hq₁⟩ := step_above hQ hs hm hstack hq hline
    have hopen₁ : ∀ pre, pre <+: more → exits pre ≤ inner₁.length + calls pre := by
      intro pre hpre
      have hlonger := hopen (line :: pre) (List.cons_prefix_cons.mpr ⟨rfl, hpre⟩)
      rw [exits_cons, calls_cons] at hlonger
      omega
    obtain ⟨inner₂, hcallers₂, hunb₂, hlen₂, hq₂⟩ :=
      ih ht hcallers (step_stacked hs hstack) hq₁ hopen₁
    rw [last_cons]
    refine ⟨inner₂, hcallers₂, hunb₂.trans hunb, ?_, hq₂⟩
    rw [exits_cons, calls_cons]
    omega

/-! ## Stack slots with a known writer -/

/-- A writer is known for the stack slot at an offset of frame `owner`, which is one of the frames
that the state can see. -/
def Knows (owner : Nat) (offset : Int) (s : State) : Prop :=
  owner ≤ s.frame ∧ (s.writerOf? (Slot.ofFrame owner offset s.frame)).isSome

/-- A stack slot with a known writer keeps having one, whoever writes it next. -/
theorem inherited_knows (owner : Nat) (offset : Int) : Inherited (Knows owner offset) where
  rest := fun _ h => h
  apply := by
    intro s s' idx ins exprs h hs
    obtain ⟨stored, ha⟩ := State.applied_of_apply hs
    refine ⟨by rw [ha.frame]; exact h.1, ?_⟩
    rw [ha.writers, ha.frame]
    split
    · rfl
    · exact h.2
  enter := by
    intro setup caller s idx ins exprs ht h hs
    have hframe : s.frame = caller.frame + 1 := by rw [State.enter_ok hs]
    refine ⟨by rw [hframe]; exact Nat.le_succ_of_le h.1, ?_⟩
    rw [hframe, State.writerOf?_enter_stack ht hs]
    exact h.2
  leave := by
    intro caller inner s idx ins _ hi hframe h hs
    have hs' : s.frame = caller.frame := by rw [State.leave_ok hs]
    refine ⟨by rw [hs']; exact h.1, ?_⟩
    rw [hs', State.writerOf?_leave_stack hi hframe hs h.1, Option.isSome_or, h.2, Bool.or_true]

/-- Every stack slot with a known writer in `prev` has one in `s` as well. -/
def Recalls (prev s : State) : Prop :=
  ∀ owner offset, Knows owner offset prev → Knows owner offset s

theorem inherited_recalls (prev : State) : Inherited (Recalls prev) where
  rest := fun _ h => h
  apply := fun h hs owner offset hk => (inherited_knows owner offset).apply (h owner offset hk) hs
  enter := fun ht h hs owner offset hk =>
    (inherited_knows owner offset).enter ht (h owner offset hk) hs
  leave := fun hc hi hf h hs owner offset hk =>
    (inherited_knows owner offset).leave hc hi hf (h owner offset hk) hs

/-! ## The bracket -/

/-- How the state `post` after an exit follows from the state `prev` before the call and the state
`inn` in which the callee exits. -/
structure Bracketed (prev inn post : State) : Prop where
  frame : post.frame = prev.frame
  /-- Locations that are no stack slots and no registers of the call. -/
  kept : ∀ k, k ∉ (Register.result :: Register.scratch).map Register.slot →
    Slot.location k = .ok none →
    post.values.get? k = (prev.values.get? k).map Cell.untouched ∧
      post.writerOf? k = prev.writerOf? k
  scratch : ∀ r ∈ Register.scratch,
    post.values.get? r.slot = some ⟨"", .write, none⟩ ∧ post.writerOf? r.slot = none
  result : post.values.get? Register.result.slot =
      some ⟨inn.valueD Register.result.slot, .none, none⟩ ∧
    post.writerOf? Register.result.slot = inn.writerOf? Register.result.slot
  /-- Stack slots for which the callee knows a writer. -/
  written : ∀ (owner : Nat) (offset w : Int), owner ≤ prev.frame →
    inn.writerOf? (Slot.ofFrame owner offset (prev.frame + 1 : Nat)) = some w →
    post.writerOf? (Slot.ofFrame owner offset prev.frame) = some w ∧
      ∃ c, inn.values.get? (Slot.ofFrame owner offset (prev.frame + 1 : Nat)) = some c ∧
        post.values.get? (Slot.ofFrame owner offset prev.frame) = some c.untouched
  /-- Stack slots for which it knows none; then none was known before the call. -/
  unwritten : ∀ (owner : Nat) (offset : Int), owner ≤ prev.frame →
    inn.writerOf? (Slot.ofFrame owner offset (prev.frame + 1 : Nat)) = none →
    post.writerOf? (Slot.ofFrame owner offset prev.frame) = none ∧
      prev.writerOf? (Slot.ofFrame owner offset prev.frame) = none ∧
      post.values.get? (Slot.ofFrame owner offset prev.frame) =
        (prev.values.get? (Slot.ofFrame owner offset prev.frame)).map Cell.untouched

/-- An exit to `prev` brackets whatever the callee did, as long as no writer known before the call
got lost. -/
theorem bracketed_of_leave {prev inn post : State} {idx : Int} {ins : Instruction}
    (hinn : inn.Tidy) (hframe : inn.frame = prev.frame + 1)
    (hknows : Recalls prev inn)
    (h : State.leave prev inn idx ins = .ok post) : Bracketed prev inn post where
  frame := by rw [State.leave_ok h]
  kept := by
    intro k hk hloc
    simp only [List.map_cons, List.mem_cons, not_or] at hk
    have hnone := Slot.stackLocation?_of_location hloc
    have hres : ¬ Register.result.slot = k := fun heq => hk.1 heq.symm
    have hscratch : k ∉ Register.scratch.map Register.slot := by simpa using hk.2
    rw [State.get?_leave_named h hnone, State.writerOf?_leave_named h hnone, if_neg hres,
      if_neg hres, if_neg hscratch, if_neg hscratch]
    exact ⟨rfl, rfl⟩
  scratch := by
    intro r hr
    have hnone := Slot.stackLocation?_register r
    have hres : ¬ Register.result.slot = r.slot := by revert r; decide
    have hmem : r.slot ∈ Register.scratch.map Register.slot := List.mem_map_of_mem hr
    rw [State.get?_leave_named h hnone, State.writerOf?_leave_named h hnone, if_neg hres,
      if_neg hres, if_pos hmem, if_pos hmem]
    exact ⟨rfl, rfl⟩
  result := by
    have hnone := Slot.stackLocation?_register Register.result
    rw [State.get?_leave_named h hnone, State.writerOf?_leave_named h hnone, if_pos rfl, if_pos rfl]
    exact ⟨rfl, rfl⟩
  written := by
    intro owner offset w ho hw
    rw [← hframe] at hw ⊢
    obtain ⟨c, hc⟩ := Option.isSome_iff_exists.mp (hinn.known _ w hw)
    rw [State.writerOf?_leave_stack hinn hframe h ho, State.get?_leave_stack hinn hframe h ho, hw,
      if_pos Option.isSome_some, hc]
    exact ⟨rfl, c, rfl, rfl⟩
  unwritten := by
    intro owner offset ho hw
    rw [← hframe] at hw
    have hprev : prev.writerOf? (Slot.ofFrame owner offset prev.frame) = none := by
      refine Option.not_isSome_iff_eq_none.mp fun hsome => ?_
      have hlater := (hknows owner offset ⟨ho, hsome⟩).2
      rw [hw] at hlater
      cases hlater
    rw [State.writerOf?_leave_stack hinn hframe h ho, State.get?_leave_stack hinn hframe h ho, hw,
      hprev, if_neg (by simp)]
    exact ⟨rfl, rfl, rfl⟩

/-- What is left after a call, a balanced body and an exit. -/
theorem call_balanced_exit {setup : Setup} {m m₁ m₂ : Machine} {call exit : LogLine}
    {body : List LogLine} {ms : List Machine} (hm : Reachable setup m) (hcall : call.isCall = true)
    (hbody : Balanced body) (hexit : exit.isExit = true) (h₁ : m.step call = .ok m₁)
    (hms : m₁.trace body = .ok ms) (h₂ : (last m₁ ms).step exit = .ok m₂) :
    m₂.callers = m.callers ∧ m₂.unbalanced = m.unbalanced ∧
      Bracketed m.state (last m₁ ms).state m₂.state := by
  obtain ⟨ins, exprs, s, henter, rfl⟩ := step_of_isCall hcall h₁
  have hstack := hm.stacked
  have hstack₁ := step_stacked h₁ hstack
  have hrecalls : ∀ t ∈ s :: ([] : List State), Recalls m.state t := by
    intro t ht
    rw [List.mem_singleton.mp ht]
    exact (inherited_recalls m.state).enter hstack.1 (fun _ _ h => h) henter
  obtain ⟨inner, hcallers, hunb, hlen, hq⟩ := trace_above (inherited_recalls m.state) hms
    (show m.state :: m.callers = [] ++ m.state :: m.callers from rfl) hstack₁ hrecalls
    (fun pre hpre => by simpa using hbody.1 pre hpre)
  -- as many exits as calls, so nothing is open above the saved state
  have hinner : inner = [] := by
    have := hbody.2
    simp only [List.length_nil] at hlen
    exact List.length_eq_zero_iff.mp (by omega)
  subst hinner
  have hstack₂ := last_invariant (P := fun m => Stacked (m.state :: m.callers))
    (fun _ _ _ hm hs => step_stacked hs hm) hms hstack₁
  obtain ⟨ins', post, hleave, rfl⟩ := step_of_isExit hexit hcallers h₂
  have hframe : (last { m with state := s, callers := m.state :: m.callers } ms).state.frame =
      m.state.frame + 1 := by
    rw [hstack₂.2.1, hcallers, hstack.2.1]
    rfl
  exact ⟨rfl, hunb, bracketed_of_leave hstack₂.1 hframe (hq _ List.mem_cons_self) hleave⟩

/-- A body that spills `r2`, first to its own stack and then, from a further callee, through `r1` to
a stack that lies below. -/
def spilling : List LogLine :=
  [ofText 3 "6: (7b) *(u64 *)(r10 -8) = r2", ofText 4 "7: (85) call pc+3",
    ofText 5 "11: (7b) *(u64 *)(r1 +0) = r2", ofText 6 "12: (95) exit"]

theorem call_spilling_exit : ∃ m m₁ ms m₂,
    Reachable {} m ∧ m.step (ofText 2 "2: (85) call pc+3") = .ok m₁ ∧
      m₁.trace spilling = .ok ms ∧ (last m₁ ms).step (ofText 7 "8: (95) exit") = .ok m₂ ∧
      m₂.callers = m.callers ∧ m₂.unbalanced = m.unbalanced ∧
      Bracketed m.state (last m₁ ms).state m₂.state := by
  let before := [ofText 0 "0: (bf) r1 = r10", ofText 1 "1: (07) r1 += -8"]
  let m := last (start {}) ((run {} before).toOption.getD [])
  let m₁ := (m.step (ofText 2 "2: (85) call pc+3")).toOption.getD m
  let ms := (m₁.trace spilling).toOption.getD []
  let m₂ := ((last m₁ ms).step (ofText 7 "8: (95) exit")).toOption.getD m
  have hrun : run {} before = .ok ((run {} before).toOption.getD []) :=
    ok_of_isSome_toOption [] (by decide +kernel)
  have hm : Reachable {} m := ⟨before, _, hrun, rfl⟩
  have h₁ : m.step (ofText 2 "2: (85) call pc+3") = .ok m₁ :=
    ok_of_isSome_toOption m (by decide +kernel)
  have hms : m₁.trace spilling = .ok ms := ok_of_isSome_toOption [] (by decide +kernel)
  have h₂ : (last m₁ ms).step (ofText 7 "8: (95) exit") = .ok m₂ :=
    ok_of_isSome_toOption m (by decide +kernel)
  exact ⟨m, m₁, ms, m₂, hm, h₁, hms, h₂,
    call_balanced_exit hm (by decide +kernel) (by decide +kernel) (by decide +kernel) h₁ hms h₂⟩

end Machine
end VerifierTrace
