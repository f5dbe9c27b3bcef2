import VerifierTrace.Proofs.Machine.Writers

/-!
# VerifierTrace.Proofs.Machine.Holding

Where the names and the values of a run come from.

The machine makes names of registers and of stack slots and the unknown value itself, takes other
names from the operands of instructions and from what is reported, and copies values. So a property
of names and one of values that hold of what it makes and of what the lines bring (`Closed`,
`Content.Brings`) hold of all names and values of every state.

* `Holding K V values`: all names have `K`, and all values have `V`, those that updates replaced
  among them.
* `Machine.step_holding`: one step keeps that for the state and for the callers.
* `Machine.holding_of_run`: so it is in every state of a run.
-/

namespace VerifierTrace

/-- The values in the cell have the property. -/
structure Cell.Has (V : String → Prop) (c : Cell) : Prop where
  value : V c.value
  previous : ∀ v ∈ c.previous, V v

def Holding (K : Slot → Prop) (V : String → Prop) (values : Table Slot Cell) : Prop :=
  values.All fun slot c => K slot ∧ c.Has V

/-- The properties hold of the names that the machine makes, and of an unknown value. -/
structure Closed (K : Slot → Prop) (V : String → Prop) : Prop where
  register : ∀ r : Register, K r.slot
  stack : ∀ (owner viewer : Nat) (offset : Int), K (Slot.ofFrame owner offset viewer)
  unknown : V ""

structure StateExpr.Has (K : Slot → Prop) (V : String → Prop) (e : StateExpr) : Prop where
  slot : K e.slot
  value : V e.value

/-- The slots that an instruction reads and writes, and what is reported behind it, have the
properties. -/
def Content.Brings (K : Slot → Prop) (V : String → Prop) : Content → Prop
  | .instruction ins exprs =>
    (∀ slot ∈ ins.reads ++ ins.writes, K slot) ∧ ∀ e ∈ exprs, e.Has K V
  | .source _ | .notice _ | .unrecognized _ => True

variable {K : Slot → Prop} {V : String → Prop}

theorem Cell.has_mk {value : String} (h : V value) (effect : Effect) :
    Cell.Has V ⟨value, effect, none⟩ where
  value := h
  previous := by simp

theorem Cell.Has.untouched {c : Cell} (h : c.Has V) : c.untouched.Has V := has_mk h.value _

namespace Holding

variable {values : Table Slot Cell} {exprs : List StateExpr}

theorem insert (h : Holding K V values) {slot : Slot} {value : String} (hslot : K slot)
    (hvalue : V value) (effect : Effect) : Holding K V (values.insert slot ⟨value, effect, none⟩) :=
  Table.All.insert h ⟨hslot, Cell.has_mk hvalue effect⟩

theorem settle (h : Holding K V values) : Holding K V (settle values) := by
  intro k c hc
  rw [get?_settle] at hc
  obtain ⟨c', hc', rfl⟩ := Option.map_eq_some_iff.mp hc
  exact ⟨(h k c' hc').1, (h k c' hc').2.untouched⟩

theorem report (h : Holding K V values) (hexprs : ∀ e ∈ exprs, e.Has K V) :
    Holding K V (report values exprs) := by
  refine Table.All.foldl ?_ h
  intro values hvalues e he
  obtain ⟨hslot, hvalue⟩ := hexprs e he
  split
  · next c hc => exact Table.All.insert hvalues ⟨hslot, hvalue, (hvalues _ c hc).2.previous⟩
  · exact Holding.insert hvalues hslot hvalue _

theorem getD (h : Holding K V values) (hunknown : V "") (slot : Slot) :
    V (((values.get? slot).map Cell.value).getD "") := by
  cases hc : values.get? slot with
  | none => exact hunknown
  | some c => exact (h slot c hc).2.value

end Holding

namespace State

variable (hclosed : Closed K V) {s s' : State} {values : Table Slot Cell} {exprs : List StateExpr}
  {idx : Int} {ins : Instruction}

include hclosed

theorem has_reportedOr (h : Holding K V values) (hexprs : ∀ e ∈ exprs, e.Has K V)
    (slot other : Slot) : V (reportedOr exprs slot values other) := by
  rcases reportedOr_elim exprs slot values other with ⟨e, he, heq⟩ | heq
  · rw [heq]
    exact (hexprs e he).value
  · rw [heq]
    exact h.getD hclosed.unknown other

/-! ## Instructions in one frame -/

theorem holding_mark (h : Holding K V s.values) (idx : Int)
    (hins : ∀ slot ∈ ins.reads ++ ins.writes, K slot) (hexprs : ∀ e ∈ exprs, e.Has K V) :
    Holding K V (s.mark idx ins exprs).values := by
  obtain ⟨hreads, hwrites⟩ := List.forall_mem_append.mp hins
  refine Holding.report ?_ hexprs
  refine Table.All.foldl ?_ (Table.All.foldl ?_ h.settle)
  · intro values hvalues slot hslot
    unfold markWritten
    split
    · refine Table.All.insert hvalues ⟨hwrites slot hslot, hclosed.unknown, ?_⟩
      -- an update keeps a value of the table
      intro v hv
      obtain ⟨v', hv', hknown⟩ := Option.bind_eq_some_iff.mp hv
      obtain ⟨c, hc, rfl⟩ := Option.map_eq_some_iff.mp hv'
      obtain ⟨rfl, -⟩ := known?_eq_some_iff.mp hknown
      exact (hvalues slot c hc).2.value
    · exact Holding.insert hvalues (hwrites slot hslot) hclosed.unknown _
  · intro values hvalues slot hslot
    exact Holding.insert hvalues (hreads slot hslot) (Holding.getD hvalues hclosed.unknown slot) _

theorem holding_store {d : Draft} (h : Holding K V d.values) (idx : Int)
    (hexprs : ∀ e ∈ exprs, e.Has K V) (source : Slot) {target : Option Slot}
    (htarget : ∀ slot ∈ target, K slot) :
    Holding K V (d.store idx exprs source target).values := by
  cases target with
  | none => exact h
  | some slot => exact h.insert (htarget slot rfl) (has_reportedOr hclosed h hexprs slot source) _

theorem holding_load {d : Draft} (h : Holding K V d.values) (hexprs : ∀ e ∈ exprs, e.Has K V)
    {dst : Slot} (hdst : K dst) {origin : Option Slot} (horigin : ∀ slot ∈ origin, K slot) :
    Holding K V (d.load exprs dst origin).values := by
  cases origin with
  | none => exact h
  | some slot =>
    have hvalue := has_reportedOr hclosed h hexprs slot slot
    have hread := h.insert (horigin slot rfl) hvalue .read
    unfold Draft.load
    cases reported? exprs dst with
    | some v => exact hread
    | none => exact hread.insert hdst hvalue _

theorem holding_apply (h : s.apply idx ins exprs = .ok s') (hs : Holding K V s.values)
    (hins : ∀ slot ∈ ins.reads ++ ins.writes, K slot) (hexprs : ∀ e ∈ exprs, e.Has K V) :
    Holding K V s'.values := by
  obtain ⟨target, origin, htarget, horigin, rfl⟩ := apply_ok_iff.mp h
  have hmark := holding_mark hclosed hs idx hins hexprs
  show Holding K V (s.drafted idx ins exprs target origin).values
  unfold drafted
  split
  · next dst src hassigned =>
    have hdst : K dst.slot := by
      refine hins _ (List.mem_append_right _ ?_)
      rw [(Instruction.eq_of_assigned? hassigned).2]
      exact List.mem_cons_self
    refine holding_load hclosed (holding_store hclosed hmark idx hexprs _ ?_) hexprs hdst ?_
    · rintro slot rfl
      obtain ⟨owner, z, rfl⟩ := stored_ok htarget
      exact hclosed.stack owner s.frame z
    · rintro slot rfl
      obtain ⟨owner, z, rfl⟩ := loaded_ok horigin
      exact hclosed.stack owner s.frame z
  · exact hmark

/-! ## Frames -/

theorem holding_initial {setup : Setup} (hcontext : V setup.context) (hbase : V setup.frameBase)
    (idx pc : Int) : Holding K V (State.initial setup idx pc).values := by
  refine Holding.insert (Holding.insert ?_ (hclosed.register _) hcontext _) (hclosed.register _)
    hbase _
  refine Table.All.foldl ?_ Table.All.empty
  intro values hvalues e he
  obtain ⟨r, -, rfl⟩ := List.mem_map.mp he
  exact Holding.insert hvalues (hclosed.register r) hclosed.unknown _

theorem holding_newFrame {setup : Setup} (hbase : V setup.frameBase) {caller : State}
    (h : Holding K V caller.values) : Holding K V (newFrame setup caller).values := by
  refine Holding.insert (Table.All.foldl ?_ (Table.All.foldl ?_ Table.All.empty))
    (hclosed.register _) hbase _
  · intro values hvalues r _
    exact Holding.insert hvalues (hclosed.register r) hclosed.unknown _
  · intro values hvalues r _
    exact Holding.insert hvalues (hclosed.register r) (h.getD hclosed.unknown r.slot) _

theorem holding_enter {setup : Setup} (hbase : V setup.frameBase) {caller : State}
    (h : enter setup caller idx ins exprs = .ok s) (hcaller : Holding K V caller.values)
    (hexprs : ∀ e ∈ exprs, e.Has K V) : Holding K V s.values := by
  rw [enter_ok h]
  refine Holding.report (Table.All.insertAll (holding_newFrame hclosed hbase hcaller) ?_) hexprs
  intro e he
  obtain ⟨⟨slot, c⟩, hc, hcarried⟩ := List.mem_filterMap.mp he
  obtain ⟨name, hname, rfl⟩ := Option.map_eq_some_iff.mp hcarried
  obtain ⟨l, -, rfl⟩ := Option.map_eq_some_iff.mp hname
  have hcell := hcaller slot c ((Table.mem_entries_iff _ _ _).mp hc)
  exact ⟨hclosed.stack _ _ _, hcell.2.untouched⟩

theorem holding_leave {caller inner : State} (h : leave caller inner idx ins = .ok s)
    (hcaller : Holding K V caller.values) (hinner : Holding K V inner.values) :
    Holding K V s.values := by
  rw [leave_ok h]
  refine Holding.insert (Table.All.insertAll ?_ ?_) (hclosed.register _)
    (hinner.getD hclosed.unknown _) _
  · refine Table.All.foldl ?_ hcaller.settle
    intro values hvalues r _
    exact Holding.insert hvalues (hclosed.register r) hclosed.unknown _
  · rintro ⟨k, c⟩ he
    obtain ⟨slot, c', -, hname, hc', rfl⟩ := mem_returnedValues.mp he
    obtain ⟨owner, offset, -, -, rfl⟩ := returnName_site inner hname
    exact ⟨hclosed.stack _ _ _, (hinner slot c' hc').2.untouched⟩

end State

namespace Machine

/-- The properties hold of the names and values of all states, and of the values that new frames
start with. -/
structure Holding (K : Slot → Prop) (V : String → Prop) (m : Machine) : Prop where
  context : V m.setup.context
  frameBase : V m.setup.frameBase
  states : ∀ s ∈ m.state :: m.callers, VerifierTrace.Holding K V s.values

theorem holding_start (hclosed : Closed K V) {setup : Setup} (hcontext : V setup.context)
    (hbase : V setup.frameBase) : (start setup).Holding K V where
  context := hcontext
  frameBase := hbase
  states := by
    intro s hs
    rw [List.mem_singleton.mp hs]
    exact State.holding_initial hclosed hcontext hbase 0 0

theorem Holding.withState {m : Machine} (h : m.Holding K V) {s : State}
    (hs : VerifierTrace.Holding K V s.values) {callers : List State}
    (hcallers : callers ⊆ m.state :: m.callers) (unbalanced : Nat) :
    Holding K V ⟨m.setup, s, callers, unbalanced⟩ where
  context := h.context
  frameBase := h.frameBase
  states := by
    intro t ht
    rcases List.mem_cons.mp ht with rfl | ht
    · exact hs
    · exact h.states t (hcallers ht)

theorem step_holding (hclosed : Closed K V) {m m' : Machine} {line : LogLine}
    (h : m.step line = .ok m') (hline : line.content.Brings K V) (hm : m.Holding K V) :
    m'.Holding K V := by
  have hstate := hm.states m.state List.mem_cons_self
  have hsame : m.callers ⊆ m.state :: m.callers := List.subset_cons_self _ _
  cases transition_of_step h with
  | rest _ => exact hm.withState hstate.settle hsame _
  | apply hc _ hs =>
    rw [hc] at hline
    exact hm.withState (State.holding_apply hclosed hs hstate hline.1 hline.2) hsame _
  | call hc _ hs =>
    rw [hc] at hline
    refine hm.withState (State.holding_enter hclosed hm.frameBase hs hstate hline.2) ?_ _
    exact List.Subset.refl _
  | @leave ins exprs caller s more _ _ hcallers hs =>
    have hcaller : caller ∈ m.state :: m.callers := by simp [hcallers]
    have hmore : more ⊆ m.state :: m.callers := by
      rw [hcallers]
      exact List.subset_cons_of_subset _ (List.subset_cons_self _ _)
    exact hm.withState (State.holding_leave hclosed hs (hm.states caller hcaller) hstate) hmore _
  | restart _ _ hcallers =>
    refine hm.withState (State.holding_initial hclosed hm.context hm.frameBase _ _) hsame _

/-- In every state of a run over lines that bring names and values with the properties, all names
and values have them. -/
theorem holding_of_states (hclosed : Closed K V) {setup : Setup} {lines : List LogLine}
    {states : List State} (h : Machine.states setup lines = .ok states) (hcontext : V setup.context)
    (hbase : V setup.frameBase) (hlines : ∀ line ∈ lines, line.content.Brings K V) :
    ∀ s ∈ states, VerifierTrace.Holding K V s.values := by
  obtain ⟨ms, hrun, rfl⟩ := states_ok h
  intro s hs
  obtain ⟨m, hm, rfl⟩ := List.mem_map.mp hs
  obtain ⟨i, hi, rfl⟩ := List.mem_iff_getElem.mp hm
  have hinv := run_invariant (P := fun _ m => m.Holding K V) (holding_start hclosed hcontext hbase)
    (fun _ m m' line hm hline hstep =>
      step_holding hclosed hstep (hlines line (List.mem_of_getElem? hline)) hm) hrun i hi
  exact hinv.states _ List.mem_cons_self

end Machine
end VerifierTrace
