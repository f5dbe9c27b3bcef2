import VerifierTrace.Proofs.Machine.Run

/-!
# VerifierTrace.Proofs.Machine.Renumber

The machine over lines with other indices.

Of a line's index the machine keeps no more than who wrote what, so with `f` applied to the indices
of all lines the writers come out under `f` and all else stays. And of the state before a line it
keeps no effects: it goes on in the same way from a state that differs in them alone.

* `State.Resembles f s t`: but for effects, `t` is `s` with its writers under `f`.
* `State.Mirrors f s t`: effects and replaced values are the same too.
* `step_renumber`: machines that resemble each other are in mirrored states after a line.
* `trace_renumber`: so it is after each of many lines.
* `trace_insert`: so it is too with a line without an instruction in between.
-/

namespace VerifierTrace

def LogLine.renumber (f : Int → Int) (l : LogLine) : LogLine := { l with idx := f l.idx }

namespace State

variable (f : Int → Int)

def Draft.renumber (d : Draft) : Draft := ⟨d.values, d.writers.mapValues f⟩

def renumber (s : State) : State :=
  { s with writers := s.writers.mapValues f, idx := f s.idx }

/-- But for effects, the second state is the first with its writers under `f`. -/
structure Resembles (s t : State) : Prop where
  values : settle t.values = settle s.values
  writers : t.writers = s.writers.mapValues f
  frame : t.frame = s.frame
  pc : t.pc = s.pc

/-- The second state is the first with its writers under `f`. -/
structure Mirrors (s t : State) : Prop where
  values : t.values = s.values
  writers : t.writers = s.writers.mapValues f
  frame : t.frame = s.frame
  pc : t.pc = s.pc

variable {f}

theorem Mirrors.resembles {s t : State} (h : Mirrors f s t) : Resembles f s t :=
  ⟨congrArg settle h.values, h.writers, h.frame, h.pc⟩

theorem mirrors_renumber (s : State) : Mirrors f s (s.renumber f) := ⟨rfl, rfl, rfl, rfl⟩

theorem settle_settle (values : Table Slot Cell) : settle (settle values) = settle values := by
  refine Table.ext_entries ?_
  show (values.entries.map _).map _ = values.entries.map _
  rw [List.map_map]
  rfl

/-! ## Instructions -/

section Instructions

variable {s t : State} (h : Resembles f s t)

include h

theorem Resembles.rest : Resembles f s t.rest :=
  ⟨(settle_settle t.values).trans h.values, h.writers, h.frame, h.pc⟩

theorem rest_renumber : Mirrors f s.rest t.rest := ⟨h.values, h.writers, h.frame, h.pc⟩

theorem Resembles.writerOf? (slot : Slot) : t.writerOf? slot = (s.writerOf? slot).map f := by
  rw [State.writerOf?, h.writers, Table.get?_mapValues]
  rfl

theorem Resembles.get?_untouched (slot : Slot) :
    (t.values.get? slot).map Cell.untouched = (s.values.get? slot).map Cell.untouched := by
  rw [← get?_settle, ← get?_settle, h.values]

theorem Resembles.valueD (slot : Slot) : t.valueD slot = s.valueD slot := by
  have hvalue : ∀ cell : Option Cell,
      (cell.map Cell.untouched).map Cell.value = cell.map Cell.value := by
    intro cell
    cases cell with
    | none => rfl
    | some c => rfl
  rw [State.valueD, State.valueD, State.valueOf?, State.valueOf?, ← hvalue, h.get?_untouched, hvalue]

theorem mark_renumber (idx : Int) (ins : Instruction) (exprs : List StateExpr) :
    t.mark (f idx) ins exprs = (s.mark idx ins exprs).renumber f := by
  have hwriters : ∀ (slots : List Slot) (writers : Table Slot Int),
      (slots.foldl (fun t slot => t.insert slot idx) writers).mapValues f =
        slots.foldl (fun t slot => t.insert slot (f idx)) (writers.mapValues f) := by
    intro slots
    induction slots with
    | nil => intro writers; rfl
    | cons slot slots ih =>
      intro writers
      rw [List.foldl_cons, List.foldl_cons, ih, Table.mapValues_insert]
  rw [mark, mark, Draft.renumber, h.values, h.writers, hwriters]

end Instructions

theorem storeBehind_renumber (d : Draft) (frame : Nat) (idx : Int) (exprs : List StateExpr)
    (dst src : Operand.Form) :
    storeBehind (d.renumber f) frame (f idx) exprs dst src =
      (storeBehind d frame idx exprs dst src).map (Draft.renumber f) := by
  unfold storeBehind
  cases dst.pointer? with
  | none => rfl
  | some p =>
    simp only [Draft.renumber]
    cases slotBehind d.values frame p.1 p.2 with
    | error e => rfl
    | ok found =>
      cases found with
      | none => rfl
      | some slot => simp only [Except.map, Draft.renumber, Table.mapValues_insert]

theorem loadBehind_renumber (d : Draft) (frame : Nat) (exprs : List StateExpr)
    (dst src : Operand.Form) :
    loadBehind (d.renumber f) frame exprs dst src =
      (loadBehind d frame exprs dst src).map (Draft.renumber f) := by
  unfold loadBehind
  cases src.pointer? with
  | none => rfl
  | some p =>
    simp only [Draft.renumber]
    cases slotBehind d.values frame p.1 p.2 with
    | error e => rfl
    | ok found =>
      cases found with
      | none => rfl
      | some slot =>
        simp only
        cases reported? exprs dst.slot with
        | none => rfl
        | some value => rfl

theorem followPointers_renumber (d : Draft) (frame : Nat) (idx : Int) (exprs : List StateExpr)
    (action : Action) :
    followPointers (d.renumber f) frame (f idx) exprs action =
      (followPointers d frame idx exprs action).map (Draft.renumber f) := by
  unfold followPointers
  split
  · rw [storeBehind_renumber]
    cases storeBehind d frame idx exprs _ _ with
    | error e => rfl
    | ok d' => exact loadBehind_renumber d' frame exprs _ _
  · rfl

theorem apply_renumber {s t : State} (h : Resembles f s t) (idx : Int) (ins : Instruction)
    (exprs : List StateExpr) :
    t.apply (f idx) ins exprs = (s.apply idx ins exprs).map (renumber f) := by
  rw [apply, apply, mark_renumber h, h.frame, followPointers_renumber]
  cases followPointers (s.mark idx ins exprs) s.frame idx exprs ins.action with
  | error e => rfl
  | ok d => rfl

/-! ## Frames -/

theorem carrySlot_renumber {s t : State} (h : Resembles f s t) (d : Draft) (slot : Slot)
    {c c' : Cell} (hc : c'.untouched = c.untouched) :
    carrySlot t (d.renumber f) slot c' = (carrySlot s d slot c).map (Draft.renumber f) := by
  unfold carrySlot
  cases Slot.location slot with
  | error e => rfl
  | ok found =>
    cases found with
    | none => rfl
    | some l =>
      simp only [h.frame, h.writerOf?, hc]
      cases s.writerOf? slot with
      | none => rfl
      | some w => simp only [Option.map_some, Except.map, Draft.renumber, Table.mapValues_insert]

theorem carrySlots_renumber {s t : State} (h : Resembles f s t) (d : Draft)
    {es es' : List (Slot × Cell)}
    (hes : es'.map (fun e => (e.1, e.2.untouched)) = es.map fun e => (e.1, e.2.untouched)) :
    carrySlots t (d.renumber f) es' = (carrySlots s d es).map (Draft.renumber f) := by
  induction es generalizing es' d with
  | nil =>
    rw [List.map_nil, List.map_eq_nil_iff] at hes
    subst hes
    rfl
  | cons e es ih =>
    cases es' with
    | nil => cases hes
    | cons e' es' =>
      simp only [List.map_cons, List.cons.injEq, Prod.mk.injEq] at hes
      obtain ⟨⟨hslot, hcell⟩, hmore⟩ := hes
      unfold carrySlots
      rw [hslot, carrySlot_renumber h d e.1 hcell]
      cases carrySlot s d e.1 e.2 with
      | error e => rfl
      | ok d' => exact ih d' hmore

theorem newFrame_renumber (setup : Setup) {s t : State} (h : Resembles f s t) :
    newFrame setup t = (newFrame setup s).renumber f := by
  have hvalues : (newFrame setup t).values = (newFrame setup s).values := by
    simp only [newFrame, h.valueD]
  have hwriters : (newFrame setup t).writers = (newFrame setup s).writers.mapValues f := by
    refine (List.foldl_hom (Table.mapValues f) fun writers r => ?_ :
      _ = Table.mapValues f (List.foldl _ .empty _))
    rw [h.writerOf?]
    cases s.writerOf? r.slot with
    | none => rfl
    | some w => exact (Table.mapValues_insert f writers r.slot w).symm
  exact congrArg₂ Draft.mk hvalues hwriters

theorem enter_renumber (setup : Setup) {s t : State} (h : Resembles f s t) (idx : Int)
    (ins : Instruction) (exprs : List StateExpr) :
    enter setup t (f idx) ins exprs = (enter setup s idx ins exprs).map (renumber f) := by
  have hentries := congrArg Table.entries h.values
  rw [enter, enter, newFrame_renumber setup h, carrySlots_renumber h _ hentries, h.frame]
  cases carrySlots s (newFrame setup s) s.values.entries with
  | error e => rfl
  | ok d => rfl

theorem scratched_renumber {s t : State} (h : Resembles f s t) :
    scratched t = (scratched s).renumber f := by
  have hwriters : (scratched t).writers = (scratched s).writers.mapValues f := by
    unfold scratched
    rw [h.writers]
    exact List.foldl_hom (Table.mapValues f) fun writers r =>
      (Table.mapValues_erase f writers r.slot).symm
  have hvalues : (scratched t).values = (scratched s).values := by
    rw [scratched, scratched, h.values]
  exact congrArg₂ Draft.mk hvalues hwriters

theorem returnSlot_renumber {caller caller' inner inner' : State}
    (hcaller : Resembles f caller caller') (hinner : Resembles f inner inner') (d : Draft)
    (slot : Slot) (w : Int) :
    returnSlot caller' inner' (d.renumber f) slot (f w) =
      (returnSlot caller inner d slot w).map (Draft.renumber f) := by
  unfold returnSlot
  cases Slot.location slot with
  | error e => rfl
  | ok found =>
    cases found with
    | none => rfl
    | some l =>
      obtain ⟨frame, offset⟩ := l
      cases frame with
      | none => rfl
      | some owner =>
        have hcell := hinner.get?_untouched slot
        simp only [hcaller.frame]
        split
        · rfl
        · cases hc : inner.values.get? slot with
          | none =>
            rw [hc, Option.map_none, Option.map_eq_none_iff] at hcell
            simp only [hcell, Except.map, Draft.renumber, Table.mapValues_insert]
          | some c =>
            rw [hc, Option.map_some, Option.map_eq_some_iff] at hcell
            obtain ⟨c', hc', heq⟩ := hcell
            simp only [hc', heq, Except.map, Draft.renumber, Table.mapValues_insert]

theorem returnSlots_renumber {caller caller' inner inner' : State}
    (hcaller : Resembles f caller caller') (hinner : Resembles f inner inner') (d : Draft)
    (es : List (Slot × Int)) :
    returnSlots caller' inner' (d.renumber f) (es.map fun e => (e.1, f e.2)) =
      (returnSlots caller inner d es).map (Draft.renumber f) := by
  induction es generalizing d with
  | nil => rfl
  | cons e es ih =>
    rw [List.map_cons]
    unfold returnSlots
    rw [returnSlot_renumber hcaller hinner]
    cases returnSlot caller inner d e.1 e.2 with
    | error e => rfl
    | ok d' => exact ih d'

theorem takeResult_renumber {inner inner' : State} (hinner : Resembles f inner inner') (d : Draft) :
    takeResult inner' (d.renumber f) = (takeResult inner d).renumber f := by
  simp only [takeResult, hinner.valueD, hinner.writerOf?]
  cases inner.writerOf? Register.result.slot with
  | none => simp only [Option.map_none, Draft.renumber, Table.mapValues_erase]
  | some w => simp only [Option.map_some, Draft.renumber, Table.mapValues_insert]

theorem leave_renumber {caller caller' inner inner' : State}
    (hcaller : Resembles f caller caller') (hinner : Resembles f inner inner') (idx : Int)
    (ins : Instruction) :
    leave caller' inner' (f idx) ins = (leave caller inner idx ins).map (renumber f) := by
  have hentries : inner'.writers.entries = inner.writers.entries.map fun e => (e.1, f e.2) :=
    congrArg Table.entries hinner.writers
  rw [leave, leave, scratched_renumber hcaller, hentries, returnSlots_renumber hcaller hinner,
    hcaller.frame]
  cases returnSlots caller inner (scratched caller) inner.writers.entries with
  | error e => rfl
  | ok d =>
    simp only [Except.map, takeResult_renumber hinner]
    rfl

theorem initial_renumber (setup : Setup) (idx pc : Int) :
    initial setup (f idx) pc = (initial setup idx pc).renumber f := rfl

end State

namespace Machine

/-! ## Steps -/

/-- The states at hand resemble each other, and so do those of the callers. -/
structure Resembles (f : Int → Int) (m n : Machine) : Prop where
  setup : n.setup = m.setup
  state : State.Resembles f m.state n.state
  callers : List.Forall₂ (State.Resembles f) m.callers n.callers
  unbalanced : n.unbalanced = m.unbalanced

theorem resembles_start (f : Int → Int) (setup : Setup) : Resembles f (start setup) (start setup) :=
  ⟨rfl, ⟨rfl, rfl, rfl, rfl⟩, .nil, rfl⟩

/-- After a line the states are mirrored, and the machines go on to resemble each other. -/
structure Mirrors (f : Int → Int) (m n : Machine) : Prop where
  state : State.Mirrors f m.state n.state
  machine : Resembles f m n

variable {f : Int → Int} {m m' n : Machine}

theorem call_renumber (h : Resembles f m n) {idx : Int} {ins : Instruction}
    {exprs : List StateExpr} (hm : m.call idx ins exprs = .ok m') :
    ∃ n', n.call (f idx) ins exprs = .ok n' ∧ Mirrors f m' n' := by
  unfold call at hm ⊢
  rw [h.setup, State.enter_renumber m.setup h.state]
  split at hm
  · cases hm
  · next s hs =>
    cases hm
    rw [hs]
    exact ⟨_, rfl, s.mirrors_renumber, rfl, s.mirrors_renumber.resembles,
      .cons h.state h.callers, h.unbalanced⟩

theorem exit_renumber (h : Resembles f m n) {idx : Int} {ins : Instruction}
    (hm : m.exit idx ins = .ok m') : ∃ n', n.exit (f idx) ins = .ok n' ∧ Mirrors f m' n' := by
  have hcallers := h.callers
  unfold exit at hm ⊢
  split at hm
  · next hnone =>
    cases hm
    rw [hnone, List.forall₂_nil_left_iff] at hcallers
    rw [hnone, hcallers, h.setup, State.initial_renumber]
    have hstate := State.mirrors_renumber (f := f)
      (.initial m.setup idx (ins.pc.getD 0 : Nat))
    exact ⟨_, rfl, hstate, rfl, hstate.resembles, .nil, congrArg (· + 1) h.unbalanced⟩
  · next caller more hsome =>
    rw [hsome, List.forall₂_cons_left_iff] at hcallers
    obtain ⟨caller', more', hcaller, hmore, heq⟩ := hcallers
    rw [heq]
    split at hm
    · cases hm
    · next s hs =>
      cases hm
      simp only [State.leave_renumber hcaller h.state, hs, Except.map]
      exact ⟨_, rfl, s.mirrors_renumber, h.setup, s.mirrors_renumber.resembles, hmore,
        h.unbalanced⟩

theorem apply_renumber (h : Resembles f m n) {idx : Int} {ins : Instruction}
    {exprs : List StateExpr} (hm : m.apply idx ins exprs = .ok m') :
    ∃ n', n.apply (f idx) ins exprs = .ok n' ∧ Mirrors f m' n' := by
  unfold Machine.apply at hm ⊢
  rw [State.apply_renumber h.state]
  split at hm
  · cases hm
  · next s hs =>
    cases hm
    rw [hs]
    exact ⟨_, rfl, s.mirrors_renumber, h.setup, s.mirrors_renumber.resembles, h.callers,
      h.unbalanced⟩

/-- Machines that resemble each other are in mirrored states after a line. -/
theorem step_renumber (h : Resembles f m n) {line : LogLine} (hm : m.step line = .ok m') :
    ∃ n', n.step (line.renumber f) = .ok n' ∧ Mirrors f m' n' := by
  unfold step LogLine.renumber at *
  split at hm
  · next ins exprs hcontent =>
    simp only [hcontent]
    unfold execute at hm ⊢
    split at hm
    · exact call_renumber h hm
    · exact exit_renumber h hm
    · exact apply_renumber h hm
  · next hother =>
    cases hm
    have hstate := State.rest_renumber h.state
    exact ⟨_, rfl, hstate, h.setup, hstate.resembles, h.callers, h.unbalanced⟩

theorem step_rest (h : Resembles f m n) {line : LogLine} (hline : line.instruction? = none) :
    ∃ n', n.step line = .ok n' ∧ n'.state.writers = n.state.writers ∧ Resembles f m n' :=
  ⟨{ n with state := n.state.rest }, step_of_rest n hline, rfl, h.setup, h.state.rest,
    h.callers, h.unbalanced⟩

/-! ## Runs -/

theorem trace_append_eq {xs : List LogLine} {ms : List Machine} (hxs : m.trace xs = .ok ms)
    (ys : List LogLine) :
    m.trace (xs ++ ys) = ((last m ms).trace ys).map fun ms' => ms ++ ms' := by
  induction xs generalizing m ms with
  | nil =>
    cases hxs
    show m.trace ys = (m.trace ys).map fun ms' => ms'
    cases m.trace ys with
    | error fault => rfl
    | ok ms' => rfl
  | cons x xs ih =>
    obtain ⟨m₁, ms₁, hs, ht, rfl⟩ := trace_cons_ok hxs
    rw [List.cons_append, trace, hs, last_cons]
    simp only [ih ht]
    cases (last m₁ ms₁).trace ys with
    | error fault => rfl
    | ok ms' => rfl

theorem trace_append {xs ys : List LogLine} {ms ms' : List Machine} (hxs : m.trace xs = .ok ms)
    (hys : (last m ms).trace ys = .ok ms') : m.trace (xs ++ ys) = .ok (ms ++ ms') := by
  rw [trace_append_eq hxs, hys]
  rfl

theorem trace_append_ok {xs ys : List LogLine} {ms : List Machine}
    (h : m.trace (xs ++ ys) = .ok ms) :
    ∃ first second, m.trace xs = .ok first ∧ (last m first).trace ys = .ok second ∧
      ms = first ++ second := by
  induction xs generalizing m ms with
  | nil => exact ⟨[], ms, rfl, h, rfl⟩
  | cons x xs ih =>
    obtain ⟨m₁, ms₁, hs, ht, rfl⟩ := trace_cons_ok h
    obtain ⟨first, second, hfirst, hsecond, rfl⟩ := ih ht
    refine ⟨m₁ :: first, second, ?_, ?_, rfl⟩
    · rw [trace, hs]
      simp only [hfirst]
    · rw [last_cons]
      exact hsecond

theorem trace_renumber (h : Resembles f m n) {lines : List LogLine} {ms : List Machine}
    (hm : m.trace lines = .ok ms) :
    ∃ ns, n.trace (lines.map (LogLine.renumber f)) = .ok ns ∧
      List.Forall₂ (fun m n => State.Mirrors f m.state n.state) ms ns ∧
      Resembles f (last m ms) (last n ns) := by
  induction lines generalizing m n ms with
  | nil =>
    cases hm
    exact ⟨[], rfl, .nil, h⟩
  | cons line lines ih =>
    obtain ⟨m', ms', hs, ht, rfl⟩ := trace_cons_ok hm
    obtain ⟨n', hs', hmirrors⟩ := step_renumber h hs
    obtain ⟨ns, ht', hstates, hlast⟩ := ih hmirrors.machine ht
    refine ⟨n' :: ns, ?_, .cons hmirrors.state hstates, ?_⟩
    · rw [List.map_cons, trace, hs']
      simp only [ht']
    · rw [last_cons, last_cons]
      exact hlast

/-- A line without an instruction, between lines that come under other indices, does not keep the
machine from going through mirrored states. -/
theorem trace_insert (h : Resembles f m n) {u : LogLine} (hu : u.instruction? = none)
    {xs ys : List LogLine} {ms : List Machine} (hm : m.trace (xs ++ ys) = .ok ms) :
    ∃ ns v ns', n.trace (xs.map (LogLine.renumber f) ++ u :: ys.map (LogLine.renumber f)) =
        .ok (ns ++ v :: ns') ∧
      List.Forall₂ (fun m n => State.Mirrors f m.state n.state) (ms.take xs.length) ns ∧
      List.Forall₂ (fun m n => State.Mirrors f m.state n.state) (ms.drop xs.length) ns' ∧
      v.state.writers = (last m (ms.take xs.length)).state.writers.mapValues f := by
  obtain ⟨first, second, hfirst, hsecond, rfl⟩ := trace_append_ok hm
  obtain ⟨ns, hns, hstates, hlast⟩ := trace_renumber h hfirst
  obtain ⟨v, hv, hwriters, hbetween⟩ := step_rest hlast hu
  obtain ⟨ns', hns', hstates', -⟩ := trace_renumber hbetween hsecond
  have hrest : (last n ns).trace (u :: ys.map (LogLine.renumber f)) = .ok (v :: ns') := by
    rw [trace, hv]
    simp only [hns']
  refine ⟨ns, v, ns', trace_append hns hrest, ?_⟩
  rw [← length_trace hfirst, List.take_left, List.drop_left]
  exact ⟨hstates, hstates', hwriters.trans hlast.state.writers⟩

end Machine
end VerifierTrace
