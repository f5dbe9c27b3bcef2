import VerifierTrace.Proofs.Machine.Writers

/-!
# VerifierTrace.Proofs.Machine.Previous

The values that updates replaced.

An instruction captures such a value while it marks its slots, before anything is reported and before
pointers are followed. Reports change values only, and a load or a store through a pointer replaces
the whole cell by one that is no update, so what was captured stays with the effect that it belongs
to. All other steps make cells without either.

* `Cell.Remembers`: the cell has a previous value if it is updated and had a value before, and then
  that one.
* `step_remembers`: so it is for all cells after a step, whatever the machine looked like before.
* `previousOf?_of_states`: so it is in every state of a run, for the state in front of it.
-/

namespace VerifierTrace

/-- The cell keeps the value that it had before if it is updated and the value is known, and
otherwise none. -/
def Cell.Remembers (before : Option String) (c : Cell) : Prop :=
  c.previous = if c.effect = .update then before.bind State.known? else none

theorem Cell.remembers_mk (before : Option String) (value : String) {effect : Effect}
    (h : effect ≠ .update) : Cell.Remembers before ⟨value, effect, none⟩ := (if_neg h).symm

theorem Cell.remembers_untouched (before : Option String) (c : Cell) :
    c.untouched.Remembers before := remembers_mk before c.value (by decide)

theorem Cell.Remembers.withValue {before : Option String} {c : Cell} (h : c.Remembers before)
    (value : String) : Cell.Remembers before { c with value := value } := h

/-- The value that an update of the slot replaced. -/
def State.previousOf? (s : State) (slot : Slot) : Option String :=
  (s.values.get? slot).bind Cell.previous

namespace State

/-- All cells keep what they had in the state `before`. -/
def Remembers (before : State) (values : Table Slot Cell) : Prop :=
  values.All fun slot c => c.Remembers (before.valueOf? slot)

theorem known?_getD (value : Option String) : known? (value.getD "") = value.bind known? := by
  cases value <;> rfl

variable {before s s' : State} {values : Table Slot Cell} {exprs : List StateExpr} {idx : Int}
  {ins : Instruction}

theorem remembers_empty (before : State) : Remembers before .empty := Table.All.empty

theorem Remembers.insert (h : Remembers before values) (slot : Slot) (value : String)
    {effect : Effect} (heffect : effect ≠ .update) :
    Remembers before (values.insert slot ⟨value, effect, none⟩) :=
  Table.All.insert h (Cell.remembers_mk _ _ heffect)

theorem remembers_settle (before : State) (values : Table Slot Cell) :
    Remembers before (settle values) := by
  intro k c hc
  rw [get?_settle] at hc
  obtain ⟨c', -, rfl⟩ := Option.map_eq_some_iff.mp hc
  exact c'.remembers_untouched _

theorem Remembers.report (h : Remembers before values) (exprs : List StateExpr) :
    Remembers before (report values exprs) := by
  refine Table.All.foldl ?_ h
  intro values hvalues e _
  split
  · next c hc => exact Table.All.insert hvalues ((hvalues _ c hc).withValue e.value)
  · exact Remembers.insert hvalues _ _ (by decide)

/-! ## Instructions in one frame -/

theorem remembers_touch {reads writes : List Slot} {k : Slot} {c : Cell}
    (h : touch reads writes k (s.values.get? k) = some c) : c.Remembers (s.valueOf? k) := by
  unfold touch at h
  split at h
  · cases h
    split
    · exact known?_getD _
    · rfl
  · split at h
    · cases h
      rfl
    · obtain ⟨c', -, rfl⟩ := Option.map_eq_some_iff.mp h
      exact c'.remembers_untouched _

theorem remembers_mark (s : State) (idx : Int) (ins : Instruction) (exprs : List StateExpr) :
    Remembers s (s.mark idx ins exprs).values := by
  intro k c hc
  rw [get?_mark] at hc
  cases ht : touch ins.reads ins.writes k (s.values.get? k) with
  | none =>
    rw [ht] at hc
    cases hr : reported? exprs k with
    | none => rw [hr] at hc; cases hc
    | some v => rw [hr] at hc; cases hc; rfl
  | some c' =>
    have hc' := remembers_touch ht
    rw [ht] at hc
    cases hr : reported? exprs k with
    | none => rw [hr] at hc; cases hc; exact hc'
    | some v => rw [hr] at hc; cases hc; exact hc'.withValue v

theorem Remembers.store {d : Draft} (h : Remembers before d.values) (idx : Int)
    (exprs : List StateExpr) (source : Slot) (target : Option Slot) :
    Remembers before (d.store idx exprs source target).values := by
  cases target with
  | none => exact h
  | some slot => exact h.insert slot _ (by decide)

theorem Remembers.load {d : Draft} (h : Remembers before d.values) (exprs : List StateExpr)
    (dst : Slot) (origin : Option Slot) : Remembers before (d.load exprs dst origin).values := by
  cases origin with
  | none => exact h
  | some slot =>
    have hread := h.insert slot (reportedOr exprs slot d.values slot) (by decide : Effect.read ≠ _)
    unfold Draft.load
    cases reported? exprs dst with
    | some v => exact hread
    | none => exact hread.insert dst _ (by decide)

theorem remembers_apply (h : s.apply idx ins exprs = .ok s') : Remembers s s'.values := by
  obtain ⟨target, origin, -, -, rfl⟩ := apply_ok_iff.mp h
  show Remembers s (s.drafted idx ins exprs target origin).values
  unfold drafted
  split
  · exact ((remembers_mark s idx ins exprs).store idx exprs _ target).load exprs _ origin
  · exact remembers_mark s idx ins exprs

/-! ## Frames -/

theorem remembers_initial (before : State) (setup : Setup) (idx pc : Int) :
    Remembers before (State.initial setup idx pc).values := by
  refine Remembers.insert (Remembers.insert ?_ _ _ (by decide)) _ _ (by decide)
  refine Table.All.foldl ?_ (remembers_empty before)
  intro values hvalues e he
  obtain ⟨r, -, rfl⟩ := List.mem_map.mp he
  exact Remembers.insert hvalues r.slot "" (by decide)

theorem remembers_newFrame (before : State) (setup : Setup) (caller : State) :
    Remembers before (newFrame setup caller).values := by
  refine Remembers.insert ?_ _ _ (by decide)
  refine Table.All.foldl ?_ (Table.All.foldl ?_ (remembers_empty before))
  · intro values hvalues r _
    exact Remembers.insert hvalues r.slot "" (by decide)
  · intro values hvalues r _
    exact Remembers.insert hvalues r.slot _ (by decide)

/-- A new frame holds registers that are no updates and what is carried over untouched. -/
theorem remembers_enter {setup : Setup} {caller : State}
    (h : enter setup caller idx ins exprs = .ok s) (before : State) :
    Remembers before s.values := by
  rw [enter_ok h]
  refine Remembers.report (Table.All.insertAll ?_ ?_) exprs
  · exact remembers_newFrame before setup caller
  · intro e he
    obtain ⟨⟨slot, c⟩, -, hcarried⟩ := List.mem_filterMap.mp he
    obtain ⟨name, -, rfl⟩ := Option.map_eq_some_iff.mp hcarried
    exact c.remembers_untouched _

/-- A frame that goes on has the caller's cells and those handed back, untouched, emptied registers,
and the result. -/
theorem remembers_leave {caller inner : State} (h : leave caller inner idx ins = .ok s)
    (before : State) : Remembers before s.values := by
  rw [leave_ok h]
  refine Remembers.insert (Table.All.insertAll ?_ ?_) _ _ (by decide)
  · intro k c hc
    rw [get?_scratched] at hc
    split at hc
    · cases hc
      rfl
    · obtain ⟨c', -, rfl⟩ := Option.map_eq_some_iff.mp hc
      exact c'.remembers_untouched _
  · rintro ⟨k, c⟩ he
    obtain ⟨slot, c', -, -, -, rfl⟩ := mem_returnedValues.mp he
    exact c'.remembers_untouched _

end State

namespace Machine

theorem step_remembers {m m' : Machine} {line : LogLine} (h : m.step line = .ok m') :
    State.Remembers m.state m'.state.values := by
  cases transition_of_step h with
  | rest _ => exact State.remembers_settle m.state m.state.values
  | apply _ _ hs => exact State.remembers_apply hs
  | call _ _ hs => exact State.remembers_enter hs m.state
  | leave _ _ _ hs => exact State.remembers_leave hs m.state
  | restart _ _ _ => exact State.remembers_initial m.state _ _ _

/-- Each state of a run comes by a step from the state in front of it, the first from program
entry. -/
theorem step_of_consecutive {setup : Setup} {lines : List LogLine} {states : List State}
    (h : Machine.states setup lines = .ok states) {i : Nat} {before s : State}
    (hbefore : (State.initial setup 0 0 :: states)[i]? = some before)
    (hs : states[i]? = some s) :
    ∃ (m m' : Machine) (line : LogLine), m.state = before ∧ m.step line = .ok m' ∧ m'.state = s := by
  obtain ⟨ms, hrun, rfl⟩ := states_ok h
  obtain ⟨hlt, rfl⟩ := List.getElem?_eq_some_iff.mp hs
  have hi : i < ms.length := by simpa using hlt
  obtain ⟨m, line, hm, -, hstep⟩ := run_from_last hrun hi
  refine ⟨m, ms[i], line, ?_, hstep, by simp⟩
  rw [hm]
  cases i with
  | zero => exact Option.some.inj hbefore
  | succ i =>
    rw [stateBefore_succ setup (by omega)]
    simpa [show i < ms.length by omega] using hbefore

/-- A slot has a previous value in a state of a run if and only if the line updates it and its value
in the state in front is known, and then it is that value. -/
theorem previousOf?_of_states {setup : Setup} {lines : List LogLine} {states : List State}
    (h : Machine.states setup lines = .ok states) {i : Nat} {before s : State}
    (hbefore : (State.initial setup 0 0 :: states)[i]? = some before)
    (hs : states[i]? = some s) (slot : Slot) (v : String) :
    s.previousOf? slot = some v ↔
      s.effectOf? slot = some .update ∧ before.valueOf? slot = some v ∧ v ≠ "" := by
  obtain ⟨m, m', line, rfl, hstep, rfl⟩ := step_of_consecutive h hbefore hs
  rw [State.previousOf?, State.effectOf?]
  cases hc : m'.state.values.get? slot with
  | none => simp
  | some c =>
    have hremembers : c.previous = _ := step_remembers hstep slot c hc
    rw [Option.bind_some, Option.map_some, Option.some.injEq, hremembers]
    by_cases heffect : c.effect = .update
    · simp [heffect, Option.bind_eq_some_iff, State.known?_eq_some_iff]
    · simp [heffect]

/-- A log that updates a register three times, with a value reported for the first update only. -/
def updatingLog : List String :=
  ["0: (b7) r6 = 5 ; R6_w=5", "1: (07) r6 += 1 ; R6_w=6", "verifier chatter", "2: (0f) r6 += r7",
    "3: (07) r6 += 1"]

theorem updatingLog_previous : ∃ (states : List State) (first second third : State),
    Machine.states {} (LogLine.ofLog updatingLog) = .ok states ∧ states[1]? = some first ∧
      states[3]? = some second ∧ states[4]? = some third ∧
      first.previousOf? "r6" = some "5" ∧ second.previousOf? "r6" = some "6" ∧
      third.effectOf? "r6" = some .update ∧ third.previousOf? "r6" = none := by
  let states := (Machine.states {} (LogLine.ofLog updatingLog)).toOption.getD []
  let stateAt (i : Nat) : State := states[i]?.getD (.initial {} 0 0)
  have hrun : Machine.states {} (LogLine.ofLog updatingLog) = .ok states :=
    ok_of_isSome_toOption [] (by decide +kernel)
  have hat : ∀ i < 5, states[i]? = some (stateAt i) := by decide +kernel
  have hbefore : ∀ i < 5, 0 < i →
      (State.initial {} 0 0 :: states)[i]? = some (stateAt (i - 1)) := by decide +kernel
  refine ⟨states, stateAt 1, stateAt 3, stateAt 4, hrun, hat 1 (by decide), hat 3 (by decide),
    hat 4 (by decide), ?_, ?_, by decide +kernel, ?_⟩
  · exact (previousOf?_of_states hrun (hbefore 1 (by decide) (by decide)) (hat 1 (by decide)) "r6"
      "5").mpr (by decide +kernel)
  · exact (previousOf?_of_states hrun (hbefore 3 (by decide) (by decide)) (hat 3 (by decide)) "r6"
      "6").mpr (by decide +kernel)
  · refine Option.eq_none_iff_forall_ne_some.mpr fun v hv => ?_
    obtain ⟨-, hvalue, hne⟩ := (previousOf?_of_states hrun (hbefore 4 (by decide) (by decide))
      (hat 4 (by decide)) "r6" v).mp hv
    have hunknown : (stateAt 3).valueOf? "r6" = some "" := by decide +kernel
    exact hne (Option.some.inj (hvalue.symm.trans hunknown))

end Machine
end VerifierTrace
