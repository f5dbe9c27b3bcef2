import VerifierTrace.Proofs.Analysis.Pass
import VerifierTrace.Proofs.Instruction.Places
import VerifierTrace.Proofs.LogLine.Block
import VerifierTrace.Proofs.Machine.Registers

/-!
# VerifierTrace.Proofs.Provenance.Scan

The trace of a register as a scan back over the lines.

In a log that stays in one frame no state is needed to tell where the value of a register came from:
what the lines read and write is enough. `LogLine.scan` looks back for the last line that writes the
register, and goes on with the slot which that line copies. The trace through the states of the
machine reports the same lines (`dependencies_eq_scan`).

* `LogLine.scan`: the lines that the value of a slot came from, by reads and writes alone.
* `Action.CastsRegister`: what the reader of casts ensures. By it a writer copies no stack slot, so
  a scan that starts at a register comes to slots only that no pointer leads to.
-/

namespace VerifierTrace

/-! ## What a writer copies -/

/-- A cast takes its value from no memory. -/
def Action.CastsRegister : Action → Prop
  | .cast _ src _ _ => src.form.address? = none
  | _ => True

theorem Action.Placed.castsRegister {a : Action} (h : a.Placed) : a.CastsRegister := by
  cases a with
  | cast dst src toSpace fromSpace =>
    obtain ⟨-, r, hr⟩ := h
    show src.form.address? = none
    rw [hr]
    rfl
  | _ => trivial

def Content.CastsRegister : Content → Prop
  | .instruction ins _ => ins.action.CastsRegister
  | _ => True

theorem LogLine.castsRegister_of_read {line : LogLine}
    (h : Content.read line.raw.toList = .ok line.content) : line.content.CastsRegister := by
  have hread : LogLine.read line.raw line.idx = .ok line := by rw [LogLine.read, h]
  cases hcontent : line.content with
  | instruction ins exprs =>
    have hins : line.instruction? = some ins := by rw [instruction?, hcontent]
    obtain ⟨digits, body, rest, pc, -, haction, -⟩ := read_instruction hread hins
    exact (Action.placed_of_read haction).castsRegister
  | source note | notice what | unrecognized fault => trivial

theorem Instruction.castsRegister_assuming {ins : Instruction} (h : ins.action.CastsRegister)
    (name? : Option String) : (ins.assuming name?).action.CastsRegister := by
  unfold Instruction.assuming
  split
  · trivial
  · exact h

theorem Notice.castsRegister_settled {config : Config} {lines : List LogLine}
    (h : ∀ l ∈ lines, l.content.CastsRegister) :
    ∀ l ∈ settled config lines, l.content.CastsRegister :=
  forall_settled config (fun _ _ _ => trivial)
    (fun name? hline _ => Instruction.castsRegister_assuming hline name?) h

theorem Instruction.plain_of_soleRead? {ins : Instruction} (hcast : ins.action.CastsRegister)
    {k q : Slot} (hwrite : k ∈ ins.writes) (hsole : ins.soleRead? = some q) : q.Plain := by
  have hread := mem_reads_of_soleRead? hsole
  rcases Action.mem_reads hread with ⟨r, rfl⟩ | ⟨o, ho, rfl⟩
  · exact Slot.plain_register r
  · cases haction : ins.action with
    | compute op dst src =>
      rw [Operand.Form.plain_slot]
      -- memory is read together with the register that it lies behind
      refine Option.eq_none_iff_forall_ne_some.mpr fun a ha => ?_
      have hbase : a.1.slot ∈ ins.reads := by
        rw [haction] at ho
        rw [Instruction.reads, haction]
        simp only [Action.operands, List.mem_cons, List.not_mem_nil, or_false] at ho
        rcases ho with rfl | rfl
        · simp [Action.reads, Action.computeReads, mem_firstOnes, ha]
        · simp [Action.reads, Action.computeReads, mem_firstOnes, ha]
      exact Operand.Form.slot_ne_register ha a.1 (eq_of_soleRead? hsole hbase).symm
    | cast dst src toSpace fromSpace =>
      rw [haction] at hcast
      rw [reads, haction] at hread
      rw [List.mem_singleton.mp hread]
      exact Operand.Form.plain_slot.mpr hcast
    | branch left op right target =>
      rw [writes, haction] at hwrite
      cases hwrite
    | exit | goto word target extent | callHelper target extent | callSubprogram target extent =>
      rw [haction] at ho
      cases ho

namespace LogLine

/-- The slot that the instruction of line `i` copies its value from. -/
def soleRead? (lines : List LogLine) (i : Nat) : Option Slot :=
  (lines[i]?.bind instruction?).bind Instruction.soleRead?

theorem plain_of_lastWriter? {lines : List LogLine}
    (hcast : ∀ line ∈ lines, line.content.CastsRegister) {k q : Slot} {n w : Nat}
    (hw : lastWriter? lines k n = some w) (hq : soleRead? lines w = some q) : q.Plain := by
  obtain ⟨line, ins, hline, hins, hwrite⟩ := lastWriter?_writes hw
  rw [soleRead?, hline, Option.bind_some, hins] at hq
  have hcontent := hcast line (List.mem_of_getElem? hline)
  unfold instruction? at hins
  split at hins
  · next ins exprs heq =>
    cases hins
    rw [heq] at hcontent
    exact Instruction.plain_of_soleRead? hcontent hwrite hq
  · cases hins

/-- The lines that the value of a slot at line `i` came from. The last line that writes the slot is
one of them, and so are those that the value came from which it copies. If line `i` itself updates
the slot in place, the last writer before it stands in its place. -/
def scan (lines : List LogLine) (i : Nat) (slot : Slot) : Finset Int :=
  match _hins : lines[i]?.bind instruction? with
  | none => ∅
  | some ins =>
    match _hw : lastWriter? lines slot (i + 1) with
    | none => ∅
    | some w =>
      if _hupdate : w = i ∧ slot ∈ ins.reads then
        match _hp : lastWriter? lines slot i with
        | none => ∅
        | some p => insert (p : Int) (scan lines p slot)
      else
        match _hq : soleRead? lines w with
        | none => {(w : Int)}
        | some q => insert (w : Int) (scan lines w q)
-- a line is left at once from the slot that it copies, but may be entered through another
termination_by 2 * i + if soleRead? lines i = some slot then 0 else 1
decreasing_by
  · have hlt := lastWriter?_lt _hp
    split <;> split <;> omega
  · have hlt := lastWriter?_lt _hw
    rw [if_pos _hq]
    by_cases heq : w = i
    · have hother : soleRead? lines i ≠ some slot := by
        intro hsole
        rw [soleRead?, _hins] at hsole
        exact _hupdate ⟨heq, Instruction.mem_reads_of_soleRead? hsole⟩
      rw [if_neg hother]
      omega
    · omega

/-- What the scan adds at a line with an instruction, and the place that it goes on from. -/
def lookBack (lines : List LogLine) (i : Nat) (ins : Instruction) (slot : Slot) :
    Option History.Link :=
  (lastWriter? lines slot (i + 1)).bind fun w =>
    if w = i ∧ slot ∈ ins.reads then
      (lastWriter? lines slot i).map fun p : Nat => ⟨p, some (p, slot)⟩
    else some ⟨w, (soleRead? lines w).map fun q => (w, q)⟩

end LogLine

namespace Machine

open LogLine

/-! ## The trace through the states of a run in one frame -/

section Run

variable {setup : Setup} {lines : List LogLine} {states : List State}

theorem exists_state (h : Machine.states setup lines = .ok states) {i : Nat}
    (hi : i < lines.length) : ∃ s, states[i]? = some s := by
  obtain ⟨ms, hrun, rfl⟩ := states_ok h
  refine ⟨_, List.getElem?_eq_getElem ?_⟩
  rw [List.length_map, length_trace hrun]
  exact hi

variable (hn : Numbered lines) (hone : InOneFrame lines)
  (h : Machine.states setup lines = .ok states)

include hn hone h

theorem writerAt?_of_states {i : Nat} (hi : i ≤ lines.length) {k : Slot} (hk : k.Plain) :
    History.writerAt? ⟨lines, states⟩ ((i : Int) - 1) k =
      (lastWriter? lines k i).map Int.ofNat := by
  cases i with
  | zero => rfl
  | succ i =>
    obtain ⟨s, hs⟩ := exists_state h hi
    have hidx : ((i + 1 : Nat) : Int) - 1 = i := by omega
    rw [hidx, History.writerAt?, History.stateAt?, History.at?_natCast, hs, Option.bind_some]
    exact writerOf?_of_states hn hone h hs hk

/-- What the trace adds at a line is up to the writers before it and to what they read. -/
theorem origin?_of_states {i : Nat} {ins : Instruction}
    (hins : lines[i]?.bind instruction? = some ins) {k : Slot} (hk : k.Plain) :
    History.origin? ⟨lines, states⟩ (i, k) = lookBack lines i ins k := by
  obtain ⟨line, hline, hinstruction⟩ := Option.bind_eq_some_iff.mp hins
  have hlt : i < lines.length := (List.getElem?_eq_some_iff.mp hline).1
  have hwriter := writerAt?_of_states hn hone h (show i + 1 ≤ lines.length from hlt) hk
  have hidx : ((i + 1 : Nat) : Int) - 1 = i := by omega
  rw [hidx] at hwriter
  have hat : History.instructionAt? ⟨lines, states⟩ i = some ins := by
    rw [History.instructionAt?, History.at?_natCast]
    exact hins
  rw [History.origin?_eq, hat, hwriter, writerAt?_of_states hn hone h hlt.le hk, lookBack]
  cases hw : lastWriter? lines k (i + 1) with
  | none => rfl
  | some w =>
    have hsole : History.soleReadAt? ⟨lines, states⟩ (w : Int) = soleRead? lines w := by
      rw [History.soleReadAt?, History.instructionAt?, History.at?_natCast]
      rfl
    have hupdate : ((w : Int) = i ∧ History.effectAt? ⟨lines, states⟩ i k = some .update) ↔
        w = i ∧ k ∈ ins.reads := by
      rw [Int.ofNat_inj]
      refine and_congr_right fun heq => ?_
      -- the line at hand is the last writer, so it writes the slot, and its effect is known
      subst heq
      obtain ⟨line', ins', hline', hins', hwrite⟩ := lastWriter?_writes hw
      rw [hline] at hline'
      cases hline'
      rw [hinstruction] at hins'
      cases hins'
      obtain ⟨s, hs⟩ := exists_state h hlt
      rw [History.effectAt?, History.stateAt?, History.at?_natCast, hs, Option.bind_some,
        effectOf?_of_states hone h hs hline hinstruction hk hwrite]
      by_cases hread : k ∈ ins.reads
      · simp [hread]
      · simp [hread]
    simp only [Option.map_some, Int.ofNat_eq_natCast, hupdate, hsole, Option.map_map,
      Option.bind_some]
    rfl

theorem reported_of_states {i : Nat} {ins : Instruction}
    (hins : lines[i]?.bind instruction? = some ins) {k : Slot} (hk : k.Plain) :
    History.reported ⟨lines, states⟩ (i, k) =
      History.gather (History.reported ⟨lines, states⟩) (lookBack lines i ins k) := by
  rw [History.reported_eq (grounded_of_states hn h), History.recursion,
    origin?_of_states hn hone h hins hk]

/-- The trace of a plain slot is the scan back over the lines. -/
theorem reported_eq_scan (hcast : ∀ line ∈ lines, line.content.CastsRegister) (i : Nat) {k : Slot}
    (hk : k.Plain) : History.reported ⟨lines, states⟩ (i, k) = scan lines i k := by
  have hg := grounded_of_states hn h
  -- the cases are the ways out of the scan; it goes on at plain slots only, so `ih` applies
  fun_induction scan lines i k with
  | case1 i k hins =>
    have hat : History.instructionAt? ⟨lines, states⟩ i = none := by
      rw [History.instructionAt?, History.at?_natCast]
      exact hins
    rw [History.reported_eq hg, History.recursion, History.origin?_eq, hat]
    rfl
  | case2 i k ins hins hw =>
    rw [reported_of_states hn hone h hins hk, lookBack, hw]
    rfl
  | case3 i k ins hins w hw hupdate hp =>
    rw [reported_of_states hn hone h hins hk, lookBack, hw, Option.bind_some, if_pos hupdate, hp]
    rfl
  | case4 i k ins hins w hw hupdate p hp ih =>
    rw [reported_of_states hn hone h hins hk, lookBack, hw, Option.bind_some, if_pos hupdate, hp,
      Option.map_some, History.gather, ih hk]
    rfl
  | case5 i k ins hins w hw hupdate hq =>
    rw [reported_of_states hn hone h hins hk, lookBack, hw, Option.bind_some, if_neg hupdate, hq]
    rfl
  | case6 i k ins hins w hw hupdate q hq ih =>
    rw [reported_of_states hn hone h hins hk, lookBack, hw, Option.bind_some, if_neg hupdate, hq,
      Option.map_some, History.gather, ih (plain_of_lastWriter? hcast hw hq)]
    rfl

end Run

/-- In a log that stays in one frame, as it is read or with its notices settled, the trace of a
register reports the lines that the scan back finds. -/
theorem dependencies_eq_scan {setup : Setup} {raws : List String} {read lines : List LogLine}
    {states : List State} (hread : Analysis.readLines raws = .ok read)
    (hlines : lines = read ∨ ∃ config, lines = (Notice.settleAll config read).1)
    (hone : InOneFrame lines) (h : Machine.states setup lines = .ok states) (i : Nat)
    (r : Register) :
    (History.dependencies ⟨lines, states⟩ i r.slot).toFinset = scan lines i r.slot := by
  have hnumbered := numbered_of_readLines hread
  have hcasts : ∀ line ∈ read, line.content.CastsRegister := fun line hline =>
    castsRegister_of_read ((Analysis.read_of_readFrom hread).2 line hline)
  rcases hlines with rfl | ⟨config, rfl⟩
  · exact reported_eq_scan hnumbered hone h hcasts i (Slot.plain_register r)
  · refine reported_eq_scan (numbered_settleAll config hnumbered) hone h ?_ i
      (Slot.plain_register r)
    rw [Notice.settleAll_eq]
    exact Notice.castsRegister_settled hcasts

/-- A log with loads and stores through pointers, one of them reported where no arithmetic would
lead, updates in place, and facts that stand on a line of their own. -/
def wanderingLog : List String :=
  ["0: (bf) r1 = r10", "1: (07) r1 += -8 ; R1_w=fp-16", "2: (b7) r2 = 1",
    "3: (7b) *(u64 *)(r1 +0) = r2", "4: (79) r3 = *(u64 *)(r1 +0)", "4: R3=fp-8 R2=fp-16",
    "5: (07) r3 += 1", "6: (0f) r3 += r3", "7: (bf) r4 = r3"]

theorem wanderingLog_scan : ∃ (lines : List LogLine) (states : List State),
    lines = (Notice.settleAll {} (ofLog wanderingLog)).1 ∧ Machine.states {} lines = .ok states ∧
      (∀ (i : Nat) (r : Register),
        (History.dependencies ⟨lines, states⟩ i r.slot).toFinset = scan lines i r.slot) ∧
      History.dependencies ⟨lines, states⟩ 8 "r4" = [8, 7, 6, 4] := by
  let lines := (Notice.settleAll {} (ofLog wanderingLog)).1
  have hread : Analysis.readLines wanderingLog = .ok (ofLog wanderingLog) :=
    ok_of_isSome_toOption [] (by decide +kernel)
  have hone : InOneFrame lines := by unfold InOneFrame; decide +kernel
  have hrun : Machine.states {} lines = .ok ((Machine.states {} lines).toOption.getD []) :=
    ok_of_isSome_toOption [] (by decide +kernel)
  exact ⟨lines, _, rfl, hrun, dependencies_eq_scan hread (.inr ⟨{}, rfl⟩) hone hrun,
    by decide +kernel⟩

end Machine
end VerifierTrace
