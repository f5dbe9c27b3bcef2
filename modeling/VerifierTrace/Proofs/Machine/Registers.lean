import VerifierTrace.Proofs.Machine.Writers

/-!
# VerifierTrace.Proofs.Machine.Registers

Slots that no pointer leads to, above all the registers.

Loads and stores through pointers touch stack slots, and a load sets its destination besides. So in
a log that stays in one frame the reads and writes of the lines alone say by whom a register was
written last (`writerOf?_of_states`), and whether that line updated it in place
(`effectOf?_of_states`). The values that are reported, and the pointers among them, have no say.

* `Slot.Plain`: the slot is neither on the stack nor all memory behind pointers.
* `LogLine.lastWriter?`: the last line up to a point that writes a slot.
-/

namespace VerifierTrace

/-- Nothing is loaded from the slot or stored to it. -/
def Slot.Plain (k : Slot) : Prop := stackLocation? k = none ∧ k ≠ memory

theorem Slot.plain_register (r : Register) : Plain r.slot :=
  ⟨stackLocation?_register r, r.slot_ne_memory⟩

theorem Slot.Plain.ne_ofFrame {k : Slot} (h : k.Plain) (owner viewer : Nat) (z : Int) :
    k ≠ ofFrame owner z viewer := by
  rintro rfl
  rw [Plain, stackLocation?_ofFrame] at h
  cases h.1

theorem Operand.Form.plain_slot {f : Operand.Form} : f.slot.Plain ↔ f.address? = none := by
  cases f with
  | register r | lowerHalf r => exact ⟨fun _ => rfl, fun _ => Slot.plain_register r⟩
  | constant => exact ⟨fun _ => rfl, fun _ => by rw [Slot.Plain]; decide⟩
  | memory width base z =>
    refine ⟨fun h => ?_, fun h => by cases h⟩
    rw [slot, Slot.Plain] at h
    split at h
    · rw [Slot.stackLocation?_stack] at h
      cases h.1
    · exact absurd rfl h.2

namespace State

variable {s s' : State} {idx : Int} {ins : Instruction} {exprs : List StateExpr} {k slot : Slot}

theorem ne_stored_of_plain (hk : k.Plain) : s.stored ins exprs ≠ .ok (some k) := by
  intro h
  obtain ⟨owner, z, heq⟩ := stored_ok h
  exact hk.ne_ofFrame owner s.frame z heq

theorem ne_loaded_of_plain (hk : k.Plain) : s.loaded ins exprs ≠ .ok (some k) := by
  intro h
  obtain ⟨owner, z, heq⟩ := loaded_ok h
  exact hk.ne_ofFrame owner s.frame z heq

/-- A load that sets its destination does not read it: if it did, the destination would hold the
pointer, which is emptied before it is followed. -/
theorem unread_of_loaded {dst src : Operand.Form}
    (hassigned : ins.action.assigned? = some (dst, src)) (hdst : dst.slot.Plain)
    (hquiet : reported? exprs dst.slot = none) (h : s.loaded ins exprs = .ok (some slot)) :
    dst.slot ∉ ins.reads := by
  obtain ⟨hreads, hwrites⟩ := Instruction.eq_of_assigned? hassigned
  have haddress := Operand.Form.plain_slot.mp hdst
  simp only [loaded, hassigned, behind] at h
  split at h
  · cases h
  · next base offset hpointer =>
    have hsrc := address?_of_pointer? hpointer
    intro hmem
    have hread : dst.slot = base.slot ∨ src.isConstant = false ∧ dst.slot = src.slot := by
      simpa [hreads, Action.computeReads, mem_firstOnes, haddress, hsrc] using hmem
    rcases hread with heq | ⟨-, heq⟩
    · have hempty : s.held ins exprs base.slot = "" := by
        rw [held, ← heq, hquiet, hwrites, if_pos (List.mem_singleton.mpr rfl)]
        rfl
      rw [hempty, Slot.reach_empty] at h
      cases h
    · rw [heq, Operand.Form.plain_slot, hsrc] at hdst
      cases hdst

theorem effectOf?_apply_of_written (h : s.apply idx ins exprs = .ok s') (hk : k.Plain)
    (hwrite : k ∈ ins.writes) :
    s'.effectOf? k = some (if k ∈ ins.reads then .update else .write) := by
  have hmark : ((s.mark idx ins exprs).values.get? k).map Cell.effect =
      some (if k ∈ ins.reads then .update else .write) := by
    rw [effect_mark (.inr hwrite), if_neg (not_not_intro hwrite)]
  obtain ⟨target, origin, htarget, horigin, hs'⟩ := apply_ok_iff.mp h
  rw [effectOf?, ← hmark]
  cases hassigned : ins.action.assigned? with
  | none =>
    rw [hs', drafted, hassigned]
  | some p =>
    obtain ⟨dst, src⟩ := p
    have hdst : k = dst.slot := by
      rw [(Instruction.eq_of_assigned? hassigned).2] at hwrite
      exact List.mem_singleton.mp hwrite
    have hstore : target ≠ some k := fun heq => ne_stored_of_plain hk (heq ▸ htarget)
    rw [get?_apply h hassigned htarget horigin]
    cases origin with
    | none => rw [Draft.load, Draft.get?_store, if_neg hstore]
    | some slot =>
      have hload : k ≠ slot := fun heq => ne_loaded_of_plain hk (heq ▸ horigin)
      rw [Draft.get?_load]
      by_cases hset : k = dst.slot ∧ reported? exprs dst.slot = none
      · obtain ⟨rfl, hquiet⟩ := hset
        rw [if_pos ⟨rfl, hquiet⟩, hmark, if_neg (unread_of_loaded hassigned hk hquiet horigin)]
        rfl
      · rw [if_neg hset, if_neg hload, Draft.get?_store, if_neg hstore]

end State

/-! ## Logs that stay in one frame -/

namespace LogLine

/-- No line calls a subprogram or leaves one. -/
def InOneFrame (lines : List LogLine) : Prop :=
  ∀ line ∈ lines, line.isCall = false ∧ line.isExit = false

def writes (l : LogLine) (slot : Slot) : Bool :=
  l.instruction?.any fun ins => decide (slot ∈ ins.writes)

/-- The last of the first `n` lines that writes a slot. -/
def lastWriter? (lines : List LogLine) (slot : Slot) : Nat → Option Nat
  | 0 => none
  | n + 1 => if lines[n]?.any fun l => l.writes slot then some n else lastWriter? lines slot n

theorem lastWriter?_lt {lines : List LogLine} {slot : Slot} {n w : Nat}
    (h : lastWriter? lines slot n = some w) : w < n := by
  induction n with
  | zero => cases h
  | succ n ih =>
    unfold lastWriter? at h
    split at h
    · cases h
      exact Nat.lt_succ_self w
    · exact Nat.lt_succ_of_lt (ih h)

theorem lastWriter?_writes {lines : List LogLine} {slot : Slot} {n w : Nat}
    (h : lastWriter? lines slot n = some w) :
    ∃ line ins, lines[w]? = some line ∧ line.instruction? = some ins ∧ slot ∈ ins.writes := by
  induction n with
  | zero => cases h
  | succ n ih =>
    unfold lastWriter? at h
    split at h
    · next hwrites =>
      cases h
      obtain ⟨line, hline, hwrites⟩ := (Option.any_eq_true _ _).mp hwrites
      obtain ⟨ins, hins, hmem⟩ := (Option.any_eq_true _ _).mp hwrites
      exact ⟨line, ins, hline, hins, of_decide_eq_true hmem⟩
    · exact ih h

end LogLine

namespace Machine

open LogLine

variable {setup : Setup} {lines : List LogLine} {states : List State} {i : Nat} {s : State}
  {k : Slot}

/-- Before each line the writers of plain slots are the last lines that write them. -/
def UpToDate (lines : List LogLine) (past : List State) (m : Machine) : Prop :=
  ∀ k : Slot, k.Plain → m.state.writerOf? k = (lastWriter? lines k past.length).map Int.ofNat

theorem step_upToDate (hn : Numbered lines) (hone : InOneFrame lines) (past : List State)
    (m m' : Machine) (line : LogLine) (hm : UpToDate lines past m)
    (hline : lines[past.length]? = some line) (h : m.step line = .ok m') :
    UpToDate lines (past ++ [m'.state]) m' := by
  obtain ⟨hcall, hexit⟩ := hone line (List.mem_of_getElem? hline)
  intro k hk
  rw [List.length_append, List.length_singleton, lastWriter?, hline, Option.any_some]
  cases transition_of_step h with
  | rest hnone =>
    rw [writes, hnone, Option.any_none, if_neg Bool.false_ne_true]
    exact hm k hk
  | @apply ins exprs s hcontent _ hs =>
    obtain ⟨target, origin, htarget, -, -⟩ := State.apply_ok_iff.mp hs
    have hstored : target ≠ some k := fun heq => State.ne_stored_of_plain hk (heq ▸ htarget)
    rw [writes, instruction?, hcontent, Option.any_some]
    show s.writerOf? k = _
    rw [State.writerOf?_apply hs htarget, hn _ _ hline, hm k hk]
    by_cases hwrite : k ∈ ins.writes
    · rw [if_pos (.inl hwrite), if_pos (decide_eq_true hwrite)]
      rfl
    · rw [if_neg (not_or.mpr ⟨hwrite, hstored⟩), if_neg (by simpa using hwrite)]
  | call _ hcall' => rw [hcall] at hcall'; cases hcall'
  | leave _ hexit' => rw [hexit] at hexit'; cases hexit'
  | restart _ hexit' => rw [hexit] at hexit'; cases hexit'

/-- The writer of a plain slot is the last line that writes it. -/
theorem writerOf?_of_states (hn : Numbered lines) (hone : InOneFrame lines)
    (h : Machine.states setup lines = .ok states) (hs : states[i]? = some s) (hk : k.Plain) :
    s.writerOf? k = (lastWriter? lines k (i + 1)).map Int.ofNat := by
  obtain ⟨ms, hrun, rfl⟩ := states_ok h
  obtain ⟨hlt, rfl⟩ := List.getElem?_eq_some_iff.mp hs
  have hi : i < ms.length := by simpa using hlt
  have hstart : UpToDate lines [] (start setup) := fun k _ => rfl
  have hinv := run_invariant hstart (step_upToDate hn hone) hrun i hi k hk
  rw [List.getElem_map, hinv]
  simp [Nat.min_eq_left (Nat.succ_le_of_lt hi)]

theorem effectOf?_of_states (hone : InOneFrame lines) (h : Machine.states setup lines = .ok states)
    (hs : states[i]? = some s) {line : LogLine} {ins : Instruction} (hline : lines[i]? = some line)
    (hins : line.instruction? = some ins) (hk : k.Plain) (hwrite : k ∈ ins.writes) :
    s.effectOf? k = some (if k ∈ ins.reads then .update else .write) := by
  obtain ⟨m, m', hstep, rfl⟩ := step_of_states h hs hline
  obtain ⟨hcall, hexit⟩ := hone line (List.mem_of_getElem? hline)
  cases transition_of_step hstep with
  | rest hnone => rw [hnone] at hins; cases hins
  | apply hcontent _ hs =>
    rw [instruction?, hcontent] at hins
    cases hins
    exact State.effectOf?_apply_of_written hs hk hwrite
  | call _ hcall' => rw [hcall] at hcall'; cases hcall'
  | leave _ hexit' => rw [hexit] at hexit'; cases hexit'
  | restart _ hexit' => rw [hexit] at hexit'; cases hexit'

end Machine
end VerifierTrace
