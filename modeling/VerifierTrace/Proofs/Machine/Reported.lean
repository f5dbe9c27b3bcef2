import VerifierTrace.Proofs.Machine.Run

/-!
# VerifierTrace.Proofs.Machine.Reported

Reported values win over those that the machine works out.

* `Shows values exprs`: every slot has the known value that the facts report for it.
* `step_shows`: so it is after every instruction but an exit, whatever the instruction loads, stores
  or carries into a frame; `step_shows_rest`: lines without an instruction change no value.
* `trace_shows`: so it stays up to the next instruction.
* `step_isExit_exprs`: an exit takes no notice of what is reported behind it.
-/

namespace VerifierTrace

/-- Every slot has the known value that the facts report for it. -/
def Shows (values : Table Slot Cell) (exprs : List StateExpr) : Prop :=
  ∀ slot v, reported? exprs slot = some v → v ≠ "" → (values.get? slot).map Cell.value = some v

theorem shows_report (values : Table Slot Cell) (exprs : List StateExpr) :
    Shows (report values exprs) exprs := by
  intro slot v hv _
  rw [get?_report, hv]
  cases values.get? slot with
  | none => rfl
  | some c => rfl

namespace Shows

variable {values : Table Slot Cell} {exprs : List StateExpr}

theorem insert (h : Shows values exprs) {k : Slot} {c : Cell}
    (hk : ∀ v, reported? exprs k = some v → v ≠ "" → c.value = v) :
    Shows (values.insert k c) exprs := by
  intro slot v hv hne
  rw [Table.get?_insert]
  split
  · next heq =>
    subst heq
    rw [Option.map_some, hk v hv hne]
  · exact h slot v hv hne

theorem settle (h : Shows values exprs) : Shows (settle values) exprs := by
  intro slot v hv hne
  have hvalue := h slot v hv hne
  rw [get?_settle]
  cases hc : values.get? slot with
  | none =>
    rw [hc] at hvalue
    cases hvalue
  | some c =>
    rw [hc] at hvalue
    exact hvalue

end Shows

namespace State

theorem reportedOr_of_reported {exprs : List StateExpr} {slot : Slot} {v : String}
    (h : reported? exprs slot = some v) (hne : v ≠ "") (values : Table Slot Cell) (other : Slot) :
    reportedOr exprs slot values other = v := by
  have hknown : known? v = some v := if_neg (by rwa [String.isEmpty_iff])
  rw [reportedOr, h, Option.bind_some, hknown]

/-! ## Instructions -/

theorem Draft.store_shows {d : Draft} {idx : Int} {exprs : List StateExpr} {source : Slot}
    {target : Option Slot} (hd : Shows d.values exprs) :
    Shows (d.store idx exprs source target).values exprs := by
  cases target with
  | none => exact hd
  | some slot => exact hd.insert fun v hv hne => reportedOr_of_reported hv hne _ _

theorem Draft.load_shows {d : Draft} {exprs : List StateExpr} {dst : Slot} {origin : Option Slot}
    (hd : Shows d.values exprs) : Shows (d.load exprs dst origin).values exprs := by
  cases origin with
  | none => exact hd
  | some slot =>
    have hread := hd.insert (k := slot) (c := ⟨reportedOr exprs slot d.values slot, .read, none⟩)
      fun v hv hne => reportedOr_of_reported hv hne _ _
    cases hdst : reported? exprs dst with
    | some v =>
      simp only [Draft.load, hdst]
      exact hread
    | none =>
      -- the destination takes the loaded value only if nothing is reported for it
      simp only [Draft.load, hdst]
      refine hread.insert ?_
      intro v hv _
      rw [hdst] at hv
      cases hv

theorem apply_shows {s s' : State} {idx : Int} {ins : Instruction} {exprs : List StateExpr}
    (h : s.apply idx ins exprs = .ok s') : Shows s'.values exprs := by
  have hmark : Shows (s.mark idx ins exprs).values exprs := shows_report _ exprs
  obtain ⟨target, origin, -, -, rfl⟩ := apply_ok_iff.mp h
  show Shows (s.drafted idx ins exprs target origin).values exprs
  unfold drafted
  split
  · exact Draft.load_shows (Draft.store_shows hmark)
  · exact hmark

theorem enter_shows {setup : Setup} {caller s : State} {idx : Int} {ins : Instruction}
    {exprs : List StateExpr} (h : enter setup caller idx ins exprs = .ok s) :
    Shows s.values exprs := by
  unfold enter at h
  split at h
  · cases h
  · cases h
    exact shows_report _ exprs

end State

namespace Machine

/-! ## Lines -/

/-- After an instruction that is no exit, what is reported behind it holds. -/
theorem step_shows {m m' : Machine} {line : LogLine} (h : m.step line = .ok m')
    (hins : line.isInstruction = true) (hexit : line.isExit = false) :
    Shows m'.state.values line.exprs := by
  have hexprs : ∀ {ins exprs}, line.content = .instruction ins exprs → line.exprs = exprs := by
    intro ins exprs hcontent
    rw [LogLine.exprs, hcontent]
  cases transition_of_step h with
  | rest hnone =>
    rw [LogLine.isInstruction, hnone] at hins
    cases hins
  | apply hcontent _ hs =>
    rw [hexprs hcontent]
    exact State.apply_shows hs
  | call hcontent _ hs =>
    rw [hexprs hcontent]
    exact State.enter_shows hs
  | leave _ hexit' => rw [hexit] at hexit'; cases hexit'
  | restart _ hexit' => rw [hexit] at hexit'; cases hexit'

theorem step_shows_rest {m m' : Machine} {line : LogLine} {exprs : List StateExpr}
    (h : m.step line = .ok m') (hins : line.isInstruction = false)
    (hm : Shows m.state.values exprs) : Shows m'.state.values exprs := by
  rw [step_of_rest m (by simpa [LogLine.isInstruction] using hins)] at h
  cases h
  exact hm.settle

/-- An exit takes no notice of what is reported behind it. -/
theorem step_isExit_exprs (m : Machine) {line : LogLine} {ins : Instruction}
    {exprs : List StateExpr} (hcontent : line.content = .instruction ins exprs)
    (hexit : line.isExit = true) (other : List StateExpr) :
    m.step { line with content := .instruction ins other } = m.step line := by
  obtain ⟨opcode, pc, action⟩ := ins
  have haction : action = .exit := by
    rw [LogLine.isExit, LogLine.instruction?, hcontent] at hexit
    cases action with
    | exit => rfl
    | compute op dst src | cast dst src toSpace fromSpace | goto word target extent
    | branch left op right target | callHelper target extent | callSubprogram target extent =>
      cases hexit
  subst haction
  simp only [step, hcontent, execute]

theorem trace_shows_rest {m : Machine} {lines : List LogLine} {ms : List Machine}
    {exprs : List StateExpr} (h : m.trace lines = .ok ms) (hm : Shows m.state.values exprs) {j : Nat}
    {m' : Machine} (hj : ms[j]? = some m')
    (hquiet : ∀ k l, k ≤ j → lines[k]? = some l → l.isInstruction = false) :
    Shows m'.state.values exprs := by
  induction lines generalizing m ms j with
  | nil =>
    cases h
    cases hj
  | cons line more ih =>
    obtain ⟨m₁, ms', hs, ht, rfl⟩ := trace_cons_ok h
    have h₁ := step_shows_rest hs (hquiet 0 line (Nat.zero_le j) rfl) hm
    cases j with
    | zero =>
      cases hj
      exact h₁
    | succ j => exact ih ht h₁ hj fun k l hk hl => hquiet (k + 1) l (Nat.succ_le_succ hk) hl

/-- What is reported behind an instruction that is no exit holds up to the next instruction. -/
theorem trace_shows {m : Machine} {lines : List LogLine} {ms : List Machine}
    (h : m.trace lines = .ok ms) {i : Nat} {line : LogLine} (hline : lines[i]? = some line)
    (hins : line.isInstruction = true) (hexit : line.isExit = false) {j : Nat} (hij : i ≤ j)
    (hquiet : ∀ k l, i < k → k ≤ j → lines[k]? = some l → l.isInstruction = false) {m' : Machine}
    (hj : ms[j]? = some m') : Shows m'.state.values line.exprs := by
  induction lines generalizing m ms i j with
  | nil => cases hline
  | cons first more ih =>
    obtain ⟨m₁, ms', hs, ht, rfl⟩ := trace_cons_ok h
    cases i with
    | zero =>
      cases hline
      have h₁ := step_shows hs hins hexit
      cases j with
      | zero =>
        cases hj
        exact h₁
      | succ j =>
        exact trace_shows_rest ht h₁ hj fun k l hk hl =>
          hquiet (k + 1) l (Nat.succ_pos k) (Nat.succ_le_succ hk) hl
    | succ i =>
      cases j with
      | zero => cases hij
      | succ j =>
        exact ih ht hline (Nat.le_of_succ_le_succ hij)
          (fun k l hik hkj hl => hquiet (k + 1) l (Nat.succ_lt_succ hik) (Nat.succ_le_succ hkj) hl)
          hj

end Machine
end VerifierTrace
