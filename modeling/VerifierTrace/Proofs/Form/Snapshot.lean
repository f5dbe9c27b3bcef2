import VerifierTrace.Proofs.Form.Restored
import VerifierTrace.Proofs.Machine.Depth
import VerifierTrace.Proofs.Machine.Legible
import VerifierTrace.Proofs.Machine.Writers

/-!
# VerifierTrace.Proofs.Form.Snapshot

The forms of states, read back.

The form of a state has an entry for every slot that has a value, and the writer of the slot is in the
entry. That leaves out no writer, since a machine records writers only for slots that have a value;
so all but the values that updates replaced can be told from the form.

* `Snapshot`: what a form shows, and `Snapshot.ofDatum?`, which takes it from data that was read.
* `Snapshot.Shows`: the snapshot shows the whole state.
* `Analysis.state_shown`: so does what is read from the export of a pass.
-/

namespace VerifierTrace

open Sexp (Readable)

/-- A slot in the form of a state. -/
structure Snapshot.Entry where
  slot : Slot
  value : String
  effect : Effect
  writer : Option Int
  deriving DecidableEq, Repr

/-- What the form of a state shows. -/
structure Snapshot where
  idx : Int
  pc : Int
  frame : Int
  entries : List Snapshot.Entry
  deriving DecidableEq, Repr

namespace Effect

def ofLabel? : String → Option Effect
  | "NONE" => some .none
  | "READ" => some .read
  | "WRITE" => some .write
  | "UPDATE" => some .update
  | _ => .none

theorem ofLabel?_label (e : Effect) : ofLabel? e.label = some e := by
  cases e <;> rfl

theorem isBare_label (e : Effect) : Sexp.isBare e.label.toList = true := by
  cases e <;> decide

end Effect

namespace Snapshot

/-- The entry that data shows: a slot, its value, the effect on it, and its writer if there is a
fourth member. -/
def Entry.ofDatum? : Datum → Option Entry
  | .list [.text slot, .text value, .text label] =>
    (Effect.ofLabel? label).map fun effect => ⟨slot, value, effect, none⟩
  | .list [.text slot, .text value, .text label, .number w] =>
    (Effect.ofLabel? label).map fun effect => ⟨slot, value, effect, some w⟩
  | _ => none

/-- The snapshot that data shows. -/
def ofDatum? : Datum → Option Snapshot
  | .list [.text "state", .number idx, .text ":pc", .number pc, .text ":frame", .number frame,
      .text ":slots", .list entries] =>
    (entries.mapM Entry.ofDatum?).map fun entries => ⟨idx, pc, frame, entries⟩
  | _ => none

end Snapshot

/-- What the form of the state shows. -/
def State.snapshot (s : State) : Snapshot where
  idx := s.idx
  pc := s.pc
  frame := s.frame
  entries := s.values.entries.map fun e => ⟨e.1, e.2.value, e.2.effect, s.writerOf? e.1⟩

namespace State

variable (s : State)

theorem ofDatum?_slotForm (slot : Slot) (c : Cell) :
    Snapshot.Entry.ofDatum? (s.slotForm slot c).plain =
      some ⟨slot, c.value, c.effect, s.writerOf? slot⟩ := by
  unfold slotForm
  cases s.writerOf? slot with
  | none =>
    show (Effect.ofLabel? c.effect.label).map _ = _
    rw [Effect.ofLabel?_label]
    rfl
  | some w =>
    show (Effect.ofLabel? c.effect.label).map _ = _
    rw [Effect.ofLabel?_label]
    rfl

theorem ofDatum?_form : Snapshot.ofDatum? s.form.plain = some s.snapshot := by
  have hentries : ∀ es : List (Slot × Cell),
      (Sexp.plainItems (es.map fun e => s.slotForm e.1 e.2)).mapM Snapshot.Entry.ofDatum? =
        some (es.map fun e => ⟨e.1, e.2.value, e.2.effect, s.writerOf? e.1⟩) := by
    intro es
    induction es with
    | nil => rfl
    | cons e es ih =>
      rw [List.map_cons, Sexp.plainItems, List.mapM_cons, ofDatum?_slotForm, ih]
      rfl
  show ((Sexp.plainItems (s.values.entries.map fun e => s.slotForm e.1 e.2)).mapM
    Snapshot.Entry.ofDatum?).map _ = _
  rw [hentries]
  rfl

end State

/-- The snapshot shows the whole state: every slot once, with its value, the effect on it and its
writer, in the order of the slots, and every writer that the state records. -/
structure Snapshot.Shows (r : Snapshot) (s : State) : Prop where
  idx : r.idx = s.idx
  pc : r.pc = s.pc
  frame : r.frame = s.frame
  values : r.entries.map (fun e => (e.slot, e.value, e.effect)) =
    s.values.entries.map fun e => (e.1, e.2.value, e.2.effect)
  distinct : (r.entries.map Entry.slot).Nodup
  writer : ∀ e ∈ r.entries, e.writer = s.writerOf? e.slot
  complete : ∀ slot w, s.writerOf? slot = some w →
    ∃ e ∈ r.entries, e.slot = slot ∧ e.writer = some w

namespace State

variable {s t : State}

/-- A state that has a value for every slot with a writer is shown whole. -/
theorem snapshot_shows (h : ∀ slot w, s.writerOf? slot = some w → (s.values.get? slot).isSome) :
    s.snapshot.Shows s where
  idx := rfl
  pc := rfl
  frame := rfl
  values := by
    rw [snapshot, List.map_map]
    rfl
  distinct := by
    rw [snapshot, List.map_map]
    exact s.values.distinct
  writer := by
    intro e he
    obtain ⟨x, -, rfl⟩ := List.mem_map.mp he
    rfl
  complete := by
    intro slot w hw
    obtain ⟨c, hc⟩ := Option.isSome_iff_exists.mp (h slot w hw)
    exact ⟨_, List.mem_map_of_mem ((Table.mem_entries_iff _ _ _).mpr hc), rfl, hw⟩

/-- Two states that one snapshot shows have the same values, effects and writers. -/
theorem eq_of_shows {r : Snapshot} (hs : r.Shows s) (ht : r.Shows t) :
    s.idx = t.idx ∧ s.pc = t.pc ∧ s.frame = t.frame ∧
      (s.values.entries.map fun e => (e.1, e.2.value, e.2.effect)) =
        (t.values.entries.map fun e => (e.1, e.2.value, e.2.effect)) ∧
      ∀ slot, s.writerOf? slot = t.writerOf? slot := by
  have hwriter : ∀ {s t : State}, r.Shows s → r.Shows t → ∀ slot w, s.writerOf? slot = some w →
      t.writerOf? slot = some w := by
    intro s t hs ht slot w hw
    obtain ⟨e, he, rfl, hew⟩ := hs.complete slot w hw
    rw [← ht.writer e he, hew]
  refine ⟨hs.idx.symm.trans ht.idx, hs.pc.symm.trans ht.pc, ?_, hs.values.symm.trans ht.values, ?_⟩
  · exact Int.ofNat.inj (hs.frame.symm.trans ht.frame)
  · intro slot
    exact Option.ext fun w => ⟨hwriter hs ht slot w, hwriter ht hs slot w⟩

theorem readable_form {Q : Int → Prop} (hidx : Q s.idx) (hpc : Q s.pc) (hframe : Q s.frame)
    (hwriters : ∀ slot w, s.writerOf? slot = some w → Q w) :
    Readable (fun _ => True) Q 3 s.form := by
  have htext : ∀ {n : Nat} (x : String), Readable (fun _ => True) Q n (.text x) :=
    fun x => .text fun _ _ => trivial
  have hslots : ∀ e ∈ s.values.entries.map fun e => s.slotForm e.1 e.2,
      Readable (fun _ => True) Q 1 e := by
    intro e he
    obtain ⟨x, -, rfl⟩ := List.mem_map.mp he
    refine .list ?_
    simp only [List.forall_mem_append, List.forall_mem_cons]
    refine ⟨⟨htext _, htext _, .symbol x.2.effect.isBare_label, by simp⟩, ?_⟩
    intro e he
    obtain ⟨w, hw, rfl⟩ := List.mem_map.mp he
    exact .number (hwriters x.1 w (Option.mem_toList.mp hw))
  refine .list ?_
  simp only [List.forall_mem_cons]
  exact ⟨.symbol (by decide), .number hidx, .symbol (by decide), .number hpc, .symbol (by decide),
    .number hframe, .symbol (by decide), .list hslots, by simp⟩

end State

/-! ## The numbers of a state -/

namespace Machine

/-- After so many lines, no frame is deeper and no index greater than their number, and the number of
the instruction can be written. -/
structure Paced (past : List State) (m : Machine) : Prop where
  callers : m.callers.length ≤ past.length
  idx : m.state.idx.natAbs ≤ past.length
  pc : Decimal.Writable m.state.pc

theorem paced_start (setup : Setup) : Paced [] (start setup) where
  callers := Nat.le_refl 0
  idx := Nat.le_refl 0
  pc := Decimal.writable_zero

theorem step_paced {past : List State} {m m' : Machine} {line : LogLine} (hm : Paced past m)
    (hidx : line.idx = past.length)
    (hpc : ∀ ins, line.instruction? = some ins → ∀ pc ∈ ins.pc, Decimal.Writable pc)
    (h : m.step line = .ok m') : Paced (past ++ [m'.state]) m' := by
  obtain ⟨hidx', hpc'⟩ := step_position h
  have hlen : (past ++ [m'.state]).length = past.length + 1 := List.length_append
  refine ⟨?_, ?_, ?_⟩
  · rw [hlen]
    exact Nat.le_trans (length_callers_le h) (Nat.succ_le_succ hm.callers)
  · rw [hlen, hidx']
    split
    · rw [hidx]
      exact Nat.le_succ _
    · exact Nat.le_succ_of_le hm.idx
  · rw [hpc']
    split
    · next ins hins =>
      cases hnumber : ins.pc with
      | none => exact Decimal.writable_zero
      | some pc => exact hpc ins hins pc hnumber
    · exact hm.pc

end Machine

namespace Analysis

variable {config : Config} {raws : List String} {a : Analysis}

theorem paced_of_run (h : run config raws = .ok a) {i : Nat} {s : State}
    (hs : a.states[i]? = some s) :
    s.frame ≤ i + 1 ∧ s.idx.natAbs ≤ i + 1 ∧ Decimal.Writable s.pc := by
  obtain ⟨-, -, -, hrun⟩ := run_ok h
  have hover := over_of_run Text.closed_true h fun _ _ _ _ => trivial
  have hstep : ∀ past m m' line,
      (Machine.Stacked (m.state :: m.callers) ∧ Machine.Paced past m) →
      a.lines[past.length]? = some line → m.step line = .ok m' →
      Machine.Stacked (m'.state :: m'.callers) ∧ Machine.Paced (past ++ [m'.state]) m' := by
    intro past m m' line hm hline hstep
    refine ⟨Machine.step_stacked hstep hm.1,
      Machine.step_paced hm.2 (numbered_of_run h _ _ hline) ?_ hstep⟩
    intro ins hins pc hpc
    obtain ⟨-, hcontent⟩ := hover line (List.mem_of_getElem? hline)
    unfold LogLine.instruction? at hins
    split at hins
    · next heq =>
      cases hins
      rw [heq] at hcontent
      exact hcontent.1 pc hpc
    · cases hins
  obtain ⟨hlt, rfl⟩ := List.getElem?_eq_some_iff.mp hs
  have hi : i < a.machines.length := by simpa [states] using hlt
  obtain ⟨hstack, hpaced⟩ := Machine.run_invariant
    ⟨⟨Machine.initial_tidy _ _ _, rfl, trivial⟩, Machine.paced_start _⟩ hstep hrun i hi
  have hlen : ((a.machines.take (i + 1)).map Machine.state).length = i + 1 := by
    rw [List.length_map, List.length_take, Nat.min_eq_left hi]
  have hstate : a.states[i] = a.machines[i].state := List.getElem_map _
  rw [hstate, hstack.2.1, ← hlen]
  exact ⟨hpaced.callers, hpaced.idx, hpaced.pc⟩

/-- The pieces of the export of the states between its line feeds. -/
def statePieces (a : Analysis) : List (List Char) :=
  (State.writeForms a.states).toList.splitOn '\n'

theorem statePieces_of_ne_nil (hne : a.states ≠ []) :
    a.statePieces = a.states.map fun s => s.form.chars := by
  have hforms : ∀ e ∈ a.states.map State.form, Readable (fun _ => True) (fun _ => True) 3 e := by
    intro e he
    obtain ⟨s, -, rfl⟩ := List.mem_map.mp he
    exact State.readable_form trivial trivial trivial fun _ _ _ => trivial
  rw [statePieces, State.writeForms, Sexp.splitOn_writeLines (by simpa using hne) hforms,
    List.map_map]
  rfl

/-- The piece of every state in the export of a pass is read as data from which the whole state can
be told, as long as the number of lines up to it can be written. -/
theorem state_shown (h : run config raws = .ok a) {i : Nat} {s : State}
    (hs : a.states[i]? = some s) (hi : Decimal.Writable (i + 1 : Nat)) :
    ∃ piece datum r, a.statePieces[i]? = some piece ∧ Sexp.load piece = .ok datum ∧
      Snapshot.ofDatum? datum = some r ∧ r.Shows s := by
  have hne : a.states ≠ [] := List.ne_nil_of_mem (List.mem_of_getElem? hs)
  have hwritable : ∀ z : Int, z.natAbs ≤ i + 1 → Decimal.Writable z :=
    fun z hz => Nat.lt_of_le_of_lt hz hi
  obtain ⟨htidy, hwitnessed⟩ := Machine.witnessed_of_states (numbered_of_run h) (states_of_run h) hs
  obtain ⟨hframe, hidx, hpc⟩ := paced_of_run h hs
  have hform : Readable (fun _ => True) Decimal.Writable 3 s.form := by
    refine State.readable_form (hwritable _ hidx) hpc (hwritable _ hframe) fun slot w hw => ?_
    obtain ⟨j, -, hj, hle, -⟩ := (Machine.accounted_of_witnessed htidy hwitnessed).line slot w hw
    rw [hj]
    exact hwritable _ (Nat.le_succ_of_le hle)
  refine ⟨s.form.chars, s.form.plain, s.snapshot, ?_, hform.load_chars (by decide),
    s.ofDatum?_form, State.snapshot_shows htidy.known⟩
  rw [statePieces_of_ne_nil hne, List.getElem?_map, hs]
  rfl

/-- A log with a call, whose callee writes below the caller's stack pointer. -/
def shownLog : List String :=
  ["0: (b7) r6 = 1 ; R6_w=(\"\\;)", "1: (bf) r1 = r10", "2: (85) call pc+1",
    "4: (7b) *(u64 *)(r1 -8) = r6", "5: (95) exit", "3: (07) r6 += 1"]

theorem shownLog_shown : ∃ a, run {} shownLog = .ok a ∧ a.states.length = shownLog.length ∧
    ∀ (i : Nat) (s : State), a.states[i]? = some s → ∃ piece datum r, a.statePieces[i]? = some piece ∧
      Sexp.load piece = .ok datum ∧ Snapshot.ofDatum? datum = some r ∧ r.Shows s := by
  have hrun : run {} shownLog = .ok (ofLog {} shownLog) := run_ofLog (by decide +kernel)
  have hlength : (ofLog {} shownLog).states.length = shownLog.length := by decide +kernel
  refine ⟨_, hrun, hlength, fun i s hs => state_shown hrun hs ?_⟩
  have hlt := (List.getElem?_eq_some_iff.mp hs).1
  rw [hlength] at hlt
  exact Decimal.writable_of_le (Nat.le_trans hlt (by decide))

end Analysis
end VerifierTrace
