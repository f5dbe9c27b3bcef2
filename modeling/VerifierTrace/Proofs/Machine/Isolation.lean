import VerifierTrace.Proofs.Machine.Depth

/-!
# VerifierTrace.Proofs.Machine.Isolation

What a called subprogram can see.

A new frame is made of the arguments and of the stack slots of the caller, and of nothing else. As
long as the callee has not returned, the states saved below it are not looked at. So the caller's
other registers, its memory and its own callers have no influence on the callee.

* `State.CallsAlike s t`: the states `s` and `t` offer the same to a callee.
* `enter_congr`: then the frames entered from them are the same.
* `Machine.atop base u m`: the machine `m` with the states `base` saved below its own.
* `step_atop`, `trace_atop`: as long as it does not return to them, it runs as without them.
* `callee_isolated`: calls from states that offer the same go through the same states.
-/

namespace VerifierTrace
namespace State

/-- The stack slots of a state in order, with their values and writers. -/
def stackSlots (s : State) : List (Slot × String × Option Int) :=
  (s.values.entries.filter fun e => (Slot.stackLocation? e.1).isSome).map
    fun e => (e.1, e.2.value, s.writerOf? e.1)

/-- The states offer the same to a callee. -/
structure CallsAlike (s t : State) : Prop where
  frame : t.frame = s.frame
  values : ∀ r ∈ Register.scratch, t.valueD r.slot = s.valueD r.slot
  writers : ∀ r ∈ Register.scratch, t.writerOf? r.slot = s.writerOf? r.slot
  stack : t.stackSlots = s.stackSlots

theorem location_of_not_stack {name : Slot} (h : Slot.stackLocation? name = none) :
    Slot.location name = .ok none := by
  rw [Slot.stackLocation?, Option.map_eq_none_iff] at h
  simp only [Slot.location, h]

theorem carrySlots_filter (caller : State) (d : Draft) (es : List (Slot × Cell)) :
    carrySlots caller d es =
      carrySlots caller d (es.filter fun e => (Slot.stackLocation? e.1).isSome) := by
  induction es generalizing d with
  | nil => rfl
  | cons e es ih =>
    cases h : Slot.stackLocation? e.1 with
    | none =>
      have hskip : carrySlot caller d e.1 e.2 = .ok d := by
        simp only [carrySlot, location_of_not_stack h]
      simp only [carrySlots, hskip, List.filter_cons, h, Option.isSome_none]
      exact ih d
    | some l =>
      simp only [List.filter_cons, h, Option.isSome_some, if_true, carrySlots]
      cases carrySlot caller d e.1 e.2 with
      | error fault => rfl
      | ok d' => exact ih d'

theorem carrySlot_congr {s t : State} (hframe : t.frame = s.frame) (d : Draft) {slot : Slot}
    {c c' : Cell} (hvalue : c'.value = c.value) (hwriter : t.writerOf? slot = s.writerOf? slot) :
    carrySlot t d slot c' = carrySlot s d slot c := by
  simp only [carrySlot, hframe, hwriter, Cell.untouched, hvalue]

theorem carrySlots_congr {s t : State} (hframe : t.frame = s.frame) (d : Draft)
    {es es' : List (Slot × Cell)}
    (h : es'.map (fun e => (e.1, e.2.value, t.writerOf? e.1)) =
      es.map fun e => (e.1, e.2.value, s.writerOf? e.1)) :
    carrySlots t d es' = carrySlots s d es := by
  induction es generalizing d es' with
  | nil =>
    rw [List.map_nil, List.map_eq_nil_iff] at h
    subst h
    rfl
  | cons e es ih =>
    cases es' with
    | nil => cases h
    | cons e' es' =>
      obtain ⟨slot, c⟩ := e
      obtain ⟨slot', c'⟩ := e'
      simp only [List.map_cons, List.cons.injEq, Prod.mk.injEq] at h
      obtain ⟨⟨rfl, hvalue, hwriter⟩, hmore⟩ := h
      simp only [carrySlots, carrySlot_congr hframe d hvalue hwriter]
      cases carrySlot s d slot' c with
      | error fault => rfl
      | ok d' => exact ih d' hmore

theorem newFrame_congr (setup : Setup) {s t : State} (h : CallsAlike s t) :
    newFrame setup t = newFrame setup s := by
  obtain ⟨-, hvalues, hwriters, -⟩ := h
  simp only [Register.scratch, List.forall_mem_cons, List.not_mem_nil, false_imp_iff,
    implies_true, and_true] at hvalues hwriters
  simp only [newFrame, Register.scratch, List.foldl_cons, List.foldl_nil, hvalues, hwriters]

theorem enter_congr (setup : Setup) {s t : State} (h : CallsAlike s t) (idx : Int)
    (ins : Instruction) (exprs : List StateExpr) :
    enter setup t idx ins exprs = enter setup s idx ins exprs := by
  have hcarry : ∀ d, carrySlots t d t.values.entries = carrySlots s d s.values.entries := by
    intro d
    rw [carrySlots_filter t, carrySlots_filter s]
    exact carrySlots_congr h.frame d h.stack
  rw [enter, enter, newFrame_congr setup h, hcarry, h.frame]

end State

namespace Machine

open LogLine

/-! ## Saved states below -/

/-- The machine with more states saved below its own, and more unbalanced exits before. -/
def atop (base : List State) (u : Nat) (m : Machine) : Machine :=
  { m with callers := m.callers ++ base, unbalanced := m.unbalanced + u }

/-- A line that does not return to the states below runs as without them. -/
theorem step_atop {m : Machine} {line : LogLine} (hopen : line.isExit = true → m.callers ≠ [])
    (base : List State) (u : Nat) :
    (m.atop base u).step line = (m.step line).map (atop base u) := by
  unfold step
  cases hcontent : line.content with
  | source note => rfl
  | notice what => rfl
  | unrecognized fault => rfl
  | instruction ins exprs =>
    obtain ⟨opcode, pc, action⟩ := ins
    simp only [execute]
    cases action with
    | callSubprogram target extent =>
      simp only [call, atop]
      cases State.enter m.setup m.state line.idx _ exprs with
      | error fault => rfl
      | ok s => rfl
    | exit =>
      have hexit : line.isExit = true := by
        rw [isExit, instruction?, hcontent]
      obtain ⟨caller, more, hcallers⟩ := List.exists_cons_of_ne_nil (hopen hexit)
      simp only [exit, atop, hcallers, List.cons_append]
      cases State.leave caller m.state line.idx _ with
      | error fault => rfl
      | ok s => rfl
    | compute op dst src | cast dst src toSpace fromSpace | goto word target extent
    | branch left op right target | callHelper target extent =>
      simp only [Machine.apply, atop]
      cases m.state.apply line.idx _ exprs with
      | error fault => rfl
      | ok s => rfl

theorem trace_atop {m : Machine} {body : List LogLine}
    (hopen : ∀ pre, pre <+: body → exits pre ≤ m.callers.length + calls pre)
    (base : List State) (u : Nat) :
    (m.atop base u).trace body = (m.trace body).map (List.map (atop base u)) := by
  induction body generalizing m with
  | nil => rfl
  | cons line more ih =>
    have hline : line.isExit = true → m.callers ≠ [] := by
      intro hexit hnone
      have hone := hopen [line] (List.cons_prefix_cons.mpr ⟨rfl, List.nil_prefix⟩)
      simp [exits, calls, hexit, not_isCall_of_isExit hexit, hnone] at hone
    rw [trace, trace, step_atop hline]
    cases hs : m.step line with
    | error fault => rfl
    | ok m' =>
      obtain ⟨hcount, hunb⟩ := step_depth hs
      have hsame : m'.unbalanced = m.unbalanced :=
        hunb.resolve_right fun hmore => hline hmore.2.1 hmore.2.2
      have hmore : ∀ pre, pre <+: more → exits pre ≤ m'.callers.length + calls pre := by
        intro pre hpre
        have hlonger := hopen (line :: pre) (List.cons_prefix_cons.mpr ⟨rfl, hpre⟩)
        rw [exits_cons, calls_cons] at hlonger
        omega
      simp only [Except.map, ih hmore]
      cases m'.trace more with
      | error fault => rfl
      | ok ms => rfl

/-! ## Two calls -/

/-- The states that the machine goes through, from its own on. -/
def statesFrom (m : Machine) (lines : List LogLine) : Except NumeralFault (List State) :=
  (m.trace lines).map fun ms => ms.map Machine.state

theorem statesFrom_cons (m : Machine) (line : LogLine) (more : List LogLine) :
    m.statesFrom (line :: more) =
      match m.step line with
      | .error fault => .error fault
      | .ok m' => (m'.statesFrom more).map (m'.state :: ·) := by
  rw [statesFrom, trace]
  cases m.step line with
  | error fault => rfl
  | ok m' =>
    simp only [statesFrom]
    cases m'.trace more with
    | error fault => rfl
    | ok ms => rfl

theorem statesFrom_atop {m : Machine} {body : List LogLine}
    (hopen : ∀ pre, pre <+: body → exits pre ≤ m.callers.length + calls pre)
    (base : List State) (u : Nat) : (m.atop base u).statesFrom body = m.statesFrom body := by
  unfold statesFrom
  rw [trace_atop hopen]
  cases m.trace body with
  | error fault => rfl
  | ok ms =>
    simp only [Except.map, List.map_map]
    rfl

/-- A call goes through the entered state, and then through those of a machine that has nothing
below. -/
theorem statesFrom_call {m : Machine} {call : LogLine} {ins : Instruction}
    {exprs : List StateExpr} (hcontent : call.content = .instruction ins exprs)
    (hcall : call.isCall = true) {body : List LogLine}
    (hbody : ∀ pre, pre <+: body → exits pre ≤ calls pre) :
    m.statesFrom (call :: body) =
      match State.enter m.setup m.state call.idx ins exprs with
      | .error fault => .error fault
      | .ok s => (statesFrom ⟨m.setup, s, [], 0⟩ body).map (s :: ·) := by
  have hstep : m.step call = m.call call.idx ins exprs := by
    obtain ⟨opcode, pc, action⟩ := ins
    rw [isCall, instruction?, hcontent] at hcall
    cases action with
    | callSubprogram target extent => simp only [step, hcontent, execute]
    | compute | cast | exit | goto | branch | callHelper => cases hcall
  rw [statesFrom_cons, hstep, Machine.call]
  cases State.enter m.setup m.state call.idx ins exprs with
  | error fault => rfl
  | ok s =>
    have hopen : ∀ pre, pre <+: body → exits pre ≤ ([] : List State).length + calls pre := by
      intro pre hpre
      simpa using hbody pre hpre
    have hatop := statesFrom_atop (m := ⟨m.setup, s, [], 0⟩) hopen (m.state :: m.callers)
      m.unbalanced
    simp only [atop, List.nil_append, Nat.zero_add] at hatop
    simp only [hatop]

/-- What a caller does not offer to a subprogram has no influence on it: the call and the lines
behind it, up to the return, go through the same states. -/
theorem callee_isolated {m n : Machine} {call : LogLine} {body : List LogLine}
    (hsetup : n.setup = m.setup) (hoffers : State.CallsAlike m.state n.state)
    (hcall : call.isCall = true) (hbody : ∀ pre, pre <+: body → exits pre ≤ calls pre) :
    n.statesFrom (call :: body) = m.statesFrom (call :: body) := by
  cases hcontent : call.content with
  | instruction ins exprs =>
    rw [statesFrom_call hcontent hcall hbody, statesFrom_call hcontent hcall hbody, hsetup,
      State.enter_congr m.setup hoffers]
  | source | notice | unrecognized =>
    rw [isCall, instruction?, hcontent] at hcall
    cases hcall

/-- A caller that keeps a value in `r6`, and spills it. -/
def keepingLog : List String :=
  ["0: (b7) r6 = 7 ; R6_w=7", "1: (85) call pc+3", "5: (7b) *(u64 *)(r10 -8) = r6 ; R6=3"]

/-- Another caller of the same subprogram. -/
def otherLog : List String :=
  ["verifier chatter", "9: (85) call pc+3", "5: (7b) *(u64 *)(r10 -8) = r0 ; MEM=map R0=5"]

/-- A body that calls a further subprogram, which writes to a stack below. -/
def nestingBody : List LogLine :=
  [ofText 4 "9: (bf) r6 = r1", ofText 5 "10: (85) call pc+2",
    ofText 6 "13: (7b) *(u64 *)(r1 +0) = r2 ; R1=fp[1]-8", ofText 7 "14: (95) exit",
    ofText 8 "11: (79) r0 = *(u64 *)(r10 -8)"]

theorem nestingBody_isolated : ∃ m n : Machine, Reachable {} m ∧ Reachable {} n ∧
    n.setup = m.setup ∧ State.CallsAlike m.state n.state ∧
      (n.state.values ≠ m.state.values ∧ n.callers ≠ m.callers) ∧
      n.statesFrom (ofText 3 "6: (85) call pc+2" :: nestingBody) =
        m.statesFrom (ofText 3 "6: (85) call pc+2" :: nestingBody) := by
  let ms := (run {} (ofLog keepingLog)).toOption.getD []
  let ns := (run {} (ofLog otherLog)).toOption.getD []
  have hms : run {} (ofLog keepingLog) = .ok ms := ok_of_isSome_toOption [] (by decide +kernel)
  have hns : run {} (ofLog otherLog) = .ok ns := ok_of_isSome_toOption [] (by decide +kernel)
  let m := last (start {}) ms
  let n := last (start {}) ns
  have hoffers : n.setup = m.setup ∧ n.state.frame = m.state.frame ∧
      (∀ r ∈ Register.scratch, n.state.valueD r.slot = m.state.valueD r.slot) ∧
      (∀ r ∈ Register.scratch, n.state.writerOf? r.slot = m.state.writerOf? r.slot) ∧
      n.state.stackSlots = m.state.stackSlots ∧
      n.state.values ≠ m.state.values ∧ n.callers ≠ m.callers := by decide +kernel
  obtain ⟨hsetup, hframe, hvalues, hwriters, hstack, hdiffer⟩ := hoffers
  have halike : State.CallsAlike m.state n.state := ⟨hframe, hvalues, hwriters, hstack⟩
  have hbody : ∀ pre ∈ nestingBody.inits, exits pre ≤ calls pre := by decide +kernel
  exact ⟨m, n, ⟨_, _, hms, rfl⟩, ⟨_, _, hns, rfl⟩, hsetup, halike, hdiffer,
    callee_isolated hsetup halike (by decide +kernel)
      fun pre hpre => hbody pre ((List.mem_inits _ _).mpr hpre)⟩

end Machine
end VerifierTrace
