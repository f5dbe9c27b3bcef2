import VerifierTrace.Proofs.LogLine.Numbered
import VerifierTrace.Proofs.Machine.Run

/-!
# VerifierTrace.Proofs.Machine.Writers

Where the recorded writers come from.

A writer is recorded by the line that writes. After that it is renamed on the way into a callee and
on the way back, but it stays with its site: the state after the writing line records it for the
same site. `Witnessed` says so for a single state against the states so far. A step keeps it for the
state at hand and for all saved states (`step_witnessed`), hence every state of a run is
`Accounted` (`states_accounted`).
-/

namespace VerifierTrace
namespace Machine

/-- Every writer of the state is a line that writes, and the state after that line, one of those so
far, has it as the writer of the same site. -/
def Witnessed (lines : List LogLine) (past : List State) (s : State) : Prop :=
  ∀ slot w, s.writerOf? slot = some w →
    ∃ (j : Nat) (line : LogLine) (t : State) (slot' : Slot), w = j ∧ lines[j]? = some line ∧
      line.staysInFrame = true ∧ past[j]? = some t ∧ t.writerOf? slot' = some w ∧
      Slot.site t.frame slot' = Slot.site s.frame slot

/-- What a later state takes over from states that are witnessed is witnessed. -/
theorem Witnessed.of_inherited {lines : List LogLine} {past : List State} {s s' : State}
    (hs : Witnessed lines past s) (more : List State)
    (h : ∀ slot' w, s'.writerOf? slot' = some w → ∃ slot, s.writerOf? slot = some w ∧
      Slot.site s.frame slot = Slot.site s'.frame slot') : Witnessed lines (past ++ more) s' := by
  intro slot' w hw
  obtain ⟨slot, hslot, hsite⟩ := h slot' w hw
  obtain ⟨j, line, t, slot'', hj, hline, hstays, ht, hwt, hsite'⟩ := hs slot w hslot
  refine ⟨j, line, t, slot'', hj, hline, hstays, ?_, hwt, hsite'.trans hsite⟩
  obtain ⟨hlt, -⟩ := List.getElem?_eq_some_iff.mp ht
  rw [List.getElem?_append_left hlt]
  exact ht

theorem Witnessed.append {lines : List LogLine} {past : List State} {s : State}
    (h : Witnessed lines past s) (more : List State) : Witnessed lines (past ++ more) s :=
  h.of_inherited more fun slot _ hw => ⟨slot, hw, rfl⟩

theorem witnessed_apply {lines : List LogLine} {past : List State} {s s' : State}
    {line : LogLine} {ins : Instruction} {exprs : List StateExpr} (hs : Witnessed lines past s)
    (hline : lines[past.length]? = some line) (hidx : line.idx = past.length)
    (hstays : line.staysInFrame = true) (h : s.apply line.idx ins exprs = .ok s') :
    Witnessed lines (past ++ [s']) s' := by
  obtain ⟨stored, ha⟩ := State.applied_of_apply h
  intro slot w hw
  have hw' := hw
  rw [ha.writers] at hw'
  split at hw'
  · cases hw'
    exact ⟨past.length, line, s', slot, hidx, hline, hstays, by simp, hw, rfl⟩
  · rw [ha.frame]
    exact hs.append [s'] slot w hw'

/-- A step keeps the writers of the state and of all saved states witnessed. -/
theorem step_witnessed {lines : List LogLine} {past : List State} {m m' : Machine} {line : LogLine}
    (hm : ∀ s ∈ m.state :: m.callers, Witnessed lines past s)
    (hline : lines[past.length]? = some line) (hidx : line.idx = past.length)
    (h : m.step line = .ok m') :
    ∀ s ∈ m'.state :: m'.callers, Witnessed lines (past ++ [m'.state]) s := by
  have hstate := hm m.state List.mem_cons_self
  have hcallers : ∀ s ∈ m.callers, ∀ more, Witnessed lines (past ++ more) s :=
    fun s hs more => (hm s (List.mem_cons_of_mem _ hs)).append more
  cases transition_of_step h with
  | rest _ =>
    intro s hs
    rcases List.mem_cons.mp hs with rfl | hs
    · exact hstate.append _
    · exact hcallers s hs _
  | apply _ hstays ha =>
    intro s hs
    rcases List.mem_cons.mp hs with rfl | hs
    · exact witnessed_apply hstate hline hidx hstays ha
    · exact hcallers s hs _
  | call _ _ he =>
    intro s hs
    rcases List.mem_cons.mp hs with rfl | hs
    · refine hstate.of_inherited _ fun slot' w hw => ?_
      obtain ⟨slot, hslot, hsite, -, -⟩ := State.enter_site he hw
      exact ⟨slot, hslot, hsite⟩
    · rcases List.mem_cons.mp hs with rfl | hs
      · exact hstate.append _
      · exact hcallers s hs _
  | @leave ins exprs caller post more _ _ hmore hl =>
    have hcaller : Witnessed lines (past ++ [post]) caller := hcallers caller (by simp [hmore]) _
    intro s hs
    rcases List.mem_cons.mp hs with rfl | hs
    · have hframe : s.frame = caller.frame := by rw [State.leave_ok hl]
      intro slot' w hw
      rcases State.leave_site hl hw with hold | ⟨slot, hslot, hsite, -⟩
      · rw [hframe]
        exact hcaller slot' w hold
      · rw [hframe, ← hsite]
        exact hstate.append _ slot w hslot
    · exact hcallers s (by rw [hmore]; exact List.mem_cons_of_mem _ hs) _
  | restart _ _ hnone =>
    intro s hs
    rcases List.mem_cons.mp hs with rfl | hs
    · intro slot w hw
      cases hw
    · rw [hnone] at hs
      cases hs

/-! ## Every state of a run -/

/-- What is known of the writers recorded in state `i` of a run. -/
structure Accounted (lines : List LogLine) (states : List State) (i : Nat) (s : State) : Prop where
  known : ∀ slot w, s.writerOf? slot = some w → (s.values.get? slot).isSome
  /-- A writer is a line up to this one, with an instruction that stays in its frame. -/
  line : ∀ slot w, s.writerOf? slot = some w →
    ∃ (j : Nat) (l : LogLine), w = j ∧ j ≤ i ∧ lines[j]? = some l ∧ l.isInstruction = true ∧
      l.isCall = false ∧ l.isExit = false
  canonical : ∀ slot w, s.writerOf? slot = some w → Slot.Canonical s.frame slot
  /-- No site has two entries. -/
  unique : ∀ slot slot' w w', s.writerOf? slot = some w → s.writerOf? slot' = some w' →
    Slot.site s.frame slot = Slot.site s.frame slot' → slot = slot'
  /-- The state after the writing line has the same writer for the same site. -/
  source : ∀ slot (j : Nat), s.writerOf? slot = some (j : Int) →
    ∃ t slot', states[j]? = some t ∧ t.writerOf? slot' = some (j : Int) ∧
      Slot.site t.frame slot' = Slot.site s.frame slot

theorem accounted_of_witnessed {lines : List LogLine} {states : List State} {i : Nat} {s : State}
    (ht : s.Tidy) (h : Witnessed lines (states.take (i + 1)) s) : Accounted lines states i s where
  known := ht.known
  canonical := ht.canonical
  unique := fun slot slot' w w' hw hw' hsite =>
    (ht.canonical slot w hw).eq_of_site_eq (ht.canonical slot' w' hw') hsite
  line := by
    intro slot w hw
    obtain ⟨j, l, t, -, hj, hl, hstays, htake, -, -⟩ := h slot w hw
    simp only [LogLine.staysInFrame, Bool.and_eq_true, Bool.not_eq_true'] at hstays
    have hlt := (List.getElem?_eq_some_iff.mp htake).1
    rw [List.length_take] at hlt
    exact ⟨j, l, hj, by omega, hl, hstays.1.1, hstays.1.2, hstays.2⟩
  source := by
    intro slot j hw
    obtain ⟨j', l, t, slot', hj, -, -, htake, hwt, hsite⟩ := h slot j hw
    have hjj : j = j' := by exact_mod_cast hj
    subst hjj
    refine ⟨t, slot', ?_, hwt, hsite⟩
    obtain ⟨hlt, hget⟩ := List.getElem?_eq_some_iff.mp htake
    rw [List.length_take] at hlt
    rw [List.getElem_take] at hget
    exact List.getElem?_eq_some_iff.mpr ⟨by omega, hget⟩

/-- The invariant of a run over numbered lines: the state and all saved states lie in their frames,
and their writers are witnessed by the states so far. -/
def Provenant (lines : List LogLine) (past : List State) (m : Machine) : Prop :=
  Stacked (m.state :: m.callers) ∧ ∀ s ∈ m.state :: m.callers, Witnessed lines past s

theorem provenant_start (setup : Setup) (lines : List LogLine) :
    Provenant lines [] (start setup) := by
  refine ⟨⟨initial_tidy _ _ _, rfl, trivial⟩, ?_⟩
  intro s hs slot w hw
  rw [List.mem_singleton.mp hs] at hw
  cases hw

theorem step_provenant {lines : List LogLine} (hn : LogLine.Numbered lines) (past : List State)
    (m m' : Machine) (line : LogLine) (hm : Provenant lines past m)
    (hline : lines[past.length]? = some line) (h : m.step line = .ok m') :
    Provenant lines (past ++ [m'.state]) m' :=
  ⟨step_stacked h hm.1, step_witnessed hm.2 hline (hn _ _ hline) h⟩

theorem states_ok {setup : Setup} {lines : List LogLine} {states : List State}
    (h : Machine.states setup lines = .ok states) :
    ∃ ms, run setup lines = .ok ms ∧ states = ms.map Machine.state := by
  unfold Machine.states at h
  cases hrun : run setup lines with
  | error e => rw [hrun] at h; cases h
  | ok ms => rw [hrun] at h; cases h; exact ⟨ms, rfl, rfl⟩

theorem step_of_states {setup : Setup} {lines : List LogLine} {states : List State}
    (h : Machine.states setup lines = .ok states) {i : Nat} {s : State} {line : LogLine}
    (hs : states[i]? = some s) (hline : lines[i]? = some line) :
    ∃ m m' : Machine, m.step line = .ok m' ∧ m'.state = s := by
  obtain ⟨ms, hrun, rfl⟩ := states_ok h
  obtain ⟨hlt, rfl⟩ := List.getElem?_eq_some_iff.mp hs
  obtain ⟨m, line', -, hline', hstep⟩ := run_step (P := fun _ _ => True) trivial
    (fun _ _ _ _ _ _ _ => trivial) hrun i (by simpa using hlt)
  rw [hline] at hline'
  cases hline'
  exact ⟨m, _, hstep, (List.getElem_map _).symm⟩

theorem witnessed_of_states {setup : Setup} {lines : List LogLine} (hn : LogLine.Numbered lines)
    {states : List State} (h : Machine.states setup lines = .ok states) {i : Nat} {s : State}
    (hs : states[i]? = some s) : s.Tidy ∧ Witnessed lines (states.take (i + 1)) s := by
  obtain ⟨ms, hrun, rfl⟩ := states_ok h
  obtain ⟨hlt, rfl⟩ := List.getElem?_eq_some_iff.mp hs
  have hi : i < ms.length := by simpa using hlt
  have hinv := run_invariant (provenant_start setup lines) (step_provenant hn) hrun i hi
  rw [List.getElem_map, ← List.map_take]
  exact ⟨hinv.1.1, hinv.2 _ List.mem_cons_self⟩

/-- Every state of a run over numbered lines is accounted for. -/
theorem states_accounted {setup : Setup} {lines : List LogLine} {states : List State}
    (hn : LogLine.Numbered lines) (h : Machine.states setup lines = .ok states) (i : Nat)
    (s : State) (hs : states[i]? = some s) : Accounted lines states i s := by
  obtain ⟨htidy, hwit⟩ := witnessed_of_states hn h hs
  exact accounted_of_witnessed htidy hwit

/-- A log in which a callee writes to the stack of its caller, with a notice at the end. -/
def storingLog : List String :=
  ["0: (bf) r1 = r10", "1: (07) r1 += -8", "2: (85) call pc+3",
    "6: (7b) *(u64 *)(r1 +0) = r2", "7: (95) exit", "3: (79) r0 = *(u64 *)(r10 -8)",
    "3: R0=scalar()"]

theorem storingLog_accounted : ∃ states : List State,
    Machine.states {} (Notice.settleAll {} (LogLine.ofLog storingLog)).1 = .ok states ∧
      states.length = storingLog.length ∧ ∀ i s, states[i]? = some s →
        Accounted (Notice.settleAll {} (LogLine.ofLog storingLog)).1 states i s := by
  let lines := (Notice.settleAll {} (LogLine.ofLog storingLog)).1
  have hn : LogLine.Numbered lines :=
    LogLine.numbered_settleAll {} (LogLine.numbered_ofLog storingLog)
  have hrun : Machine.states {} lines = .ok ((Machine.states {} lines).toOption.getD []) :=
    ok_of_isSome_toOption [] (by decide +kernel)
  exact ⟨_, hrun, by decide +kernel, fun i s hs => states_accounted hn hrun i s hs⟩

end Machine
end VerifierTrace
