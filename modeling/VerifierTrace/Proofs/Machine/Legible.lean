import VerifierTrace.Proofs.LogLine.Brief
import VerifierTrace.Proofs.Machine.Depth

/-!
# VerifierTrace.Proofs.Machine.Legible

Runs in which every name and every value can be read.

The machine reads numerals back that it made itself: the names of stack slots, with sums of a
pointer and an offset in them and the numbers of frames. Values are never made, only copied, so a
sum has one digit more than the numerals of the log at most, and it does not grow again.

* `Legible n values`: the values have no more than `n` digits together, and the names no more than
  `nameDigits n`.
* `Machine.yields_step`: one step keeps all states legible, or fails within `n`.
* `Machine.yields_trace`: so does a run, as long as the numbers of frames stay small.
-/

namespace VerifierTrace

open Decimal

theorem brief_empty (n : Nat) : Brief n "".toList := .nil

/-- The name of the slot can be read. -/
def Slot.Named (n : Nat) (slot : Slot) : Prop := Brief (nameDigits n) slot.toList

namespace Slot

variable {n : Nat}

theorem named_register (r : Register) : Named n r.slot :=
  brief_register (three_le_nameDigits n) r

theorem named_ofFrame {owner : Nat} {offset : Int} (howner : owner < 10 ^ nameDigits n)
    (h : offset.natAbs < 10 ^ nameDigits n) (viewer : Nat) :
    Named n (ofFrame owner offset viewer) :=
  brief_ofFrame (nameDigits_pos n) howner h viewer

end Slot

theorem Operand.Form.named_slot {n : Nat} {f : Operand.Form} (h : f.Below n) :
    Slot.Named n f.slot := by
  cases f with
  | register r => exact Slot.named_register r
  | lowerHalf r => exact Slot.named_register r
  | memory width base offset =>
    simp only [slot]
    split
    · exact Slot.brief_stack (nameDigits_pos n) (lt_nameDigits (h (base, offset) rfl))
    · exact .of_length_le (three_le_nameDigits n)
  | constant => exact .of_length_le (three_le_nameDigits n)

namespace Instruction

variable {n : Nat} {ins : Instruction}

theorem named_of_mem_reads (h : ins.action.Below n) : ∀ slot ∈ ins.reads, Slot.Named n slot := by
  intro slot hslot
  rcases Action.mem_reads hslot with ⟨r, rfl⟩ | ⟨o, ho, rfl⟩
  · exact Slot.named_register r
  · exact Operand.Form.named_slot (h o ho)

theorem named_of_mem_writes (h : ins.action.Below n) : ∀ slot ∈ ins.writes, Slot.Named n slot := by
  intro slot hslot
  rcases Action.mem_writes hslot with ⟨r, rfl⟩ | ⟨o, ho, rfl⟩
  · exact Slot.named_register r
  · exact Operand.Form.named_slot (h o ho)

end Instruction

/-- All names can be read, and no value has more than `n` digits together. -/
def Legible (n : Nat) (values : Table Slot Cell) : Prop :=
  ∀ k c, values.get? k = some c → Slot.Named n k ∧ Brief n c.value.toList

namespace Legible

variable {n : Nat} {values : Table Slot Cell} {exprs : List StateExpr}

theorem empty : Legible n .empty := Table.All.empty

theorem insert (h : Legible n values) {k : Slot} {c : Cell} (hk : Slot.Named n k)
    (hc : Brief n c.value.toList) : Legible n (values.insert k c) :=
  Table.All.insert h ⟨hk, hc⟩

theorem foldl {α : Type} {f : Table Slot Cell → α → Table Slot Cell} {as : List α}
    (hf : ∀ values, Legible n values → ∀ a ∈ as, Legible n (f values a)) (h : Legible n values) :
    Legible n (as.foldl f values) :=
  Table.All.foldl hf h

theorem settle (h : Legible n values) : Legible n (settle values) := by
  intro k c hc
  rw [get?_settle] at hc
  obtain ⟨c', hc', rfl⟩ := Option.map_eq_some_iff.mp hc
  exact h k c' hc'

theorem report (h : Legible n values) (hexprs : ∀ e ∈ exprs, e.Brief n) :
    Legible n (report values exprs) := by
  refine h.foldl ?_
  intro values hvalues e he
  have hslot : Slot.Named n e.slot := (hexprs e he).slot.mono (Nat.le_max_left n maxDigits)
  split
  · exact hvalues.insert hslot (hexprs e he).value
  · exact hvalues.insert hslot (hexprs e he).value

theorem brief_getD (h : Legible n values) (k : Slot) :
    Brief n (((values.get? k).map Cell.value).getD "").toList := by
  cases hc : values.get? k with
  | none => exact brief_empty n
  | some c => exact (h k c hc).2

end Legible

namespace State

variable {n : Nat} {values : Table Slot Cell} {exprs : List StateExpr}

theorem brief_reportedOr (h : Legible n values) (hexprs : ∀ e ∈ exprs, e.Brief n)
    (slot other : Slot) : Brief n (reportedOr exprs slot values other).toList := by
  rcases reportedOr_elim exprs slot values other with ⟨e, he, heq⟩ | heq
  · rw [heq]
    exact (hexprs e he).value
  · rw [heq]
    exact h.brief_getD other

/-! ## Instructions in one frame -/

theorem legible_mark {s : State} (h : Legible n s.values) (idx : Int) {ins : Instruction}
    (hins : ins.action.Below n) (hexprs : ∀ e ∈ exprs, e.Brief n) :
    Legible n (s.mark idx ins exprs).values := by
  refine Legible.report ?_ hexprs
  refine Legible.foldl ?_ (h.settle.foldl ?_)
  · intro values hvalues slot hslot
    have hnamed := Instruction.named_of_mem_writes hins slot hslot
    unfold markWritten
    split
    · exact hvalues.insert hnamed (brief_empty n)
    · exact hvalues.insert hnamed (brief_empty n)
  · intro values hvalues slot hslot
    exact hvalues.insert (Instruction.named_of_mem_reads hins slot hslot) (hvalues.brief_getD slot)

/-- The offset of a pointer and that of an operand have at most `n` digits, so the slot behind them
has a name of at most one more. -/
theorem yields_slotBehind (h : Legible n values) {frame : Nat} (hframe : frame < 10 ^ nameDigits n)
    (base : Register) {offset : Int} (hoffset : offset.natAbs < 10 ^ n) :
    Yields n (fun found => ∀ slot ∈ found, Slot.Named n slot)
      (slotBehind values frame base offset) := by
  unfold slotBehind
  split
  · rintro slot ⟨⟩
  · next c hc =>
    have hlocation := Slot.yields_location (h _ c hc).2 (Nat.le_max_left n maxDigits)
    cases hl : Slot.location c.value with
    | error fault => exact hlocation.of_error hl
    | ok found =>
      cases found with
      | none => rintro slot ⟨⟩
      | some l =>
        have hbelow := hlocation.of_ok hl l rfl
        simp only
        cases hz : checkWritable (l.offset + offset) with
        | error fault => exact within_of_checkWritable hbelow.offset hoffset hz
        | ok z =>
          rintro slot ⟨⟩
          refine Slot.named_ofFrame ?_ (checkWritable_ok n hz) frame
          cases hf : l.frame with
          | none => exact hframe
          | some owner => exact lt_nameDigits (hbelow.frame owner hf)

variable {frame : Nat} {d : Draft} {dst src : Operand.Form}

theorem below_of_pointer? {f : Operand.Form} (hf : f.Below n) {base : Register} {offset : Int}
    (h : f.pointer? = some (base, offset)) : offset.natAbs < 10 ^ n :=
  hf (base, offset) (address?_of_pointer? h)

theorem yields_storeBehind (hd : Legible n d.values) (hframe : frame < 10 ^ nameDigits n)
    (idx : Int) (hexprs : ∀ e ∈ exprs, e.Brief n) (hdst : dst.Below n) (src : Operand.Form) :
    Yields n (fun d => Legible n d.values) (storeBehind d frame idx exprs dst src) := by
  unfold storeBehind
  split
  · exact hd
  · next base offset hpointer =>
    have hbehind := yields_slotBehind hd hframe base (below_of_pointer? hdst hpointer)
    cases hs : slotBehind d.values frame base offset with
    | error fault => exact hbehind.of_error hs
    | ok found =>
      cases found with
      | none => exact hd
      | some slot =>
        exact hd.insert (hbehind.of_ok hs slot rfl) (brief_reportedOr hd hexprs slot src.slot)

theorem yields_loadBehind (hd : Legible n d.values) (hframe : frame < 10 ^ nameDigits n)
    (hexprs : ∀ e ∈ exprs, e.Brief n) (hdst : dst.Below n) (hsrc : src.Below n) :
    Yields n (fun d => Legible n d.values) (loadBehind d frame exprs dst src) := by
  unfold loadBehind
  split
  · exact hd
  · next base offset hpointer =>
    have hbehind := yields_slotBehind hd hframe base (below_of_pointer? hsrc hpointer)
    cases hs : slotBehind d.values frame base offset with
    | error fault => exact hbehind.of_error hs
    | ok found =>
      cases found with
      | none => exact hd
      | some slot =>
        have hvalue := brief_reportedOr hd hexprs slot slot
        have hloaded := hd.insert (c := ⟨reportedOr exprs slot d.values slot, .read, none⟩)
          (hbehind.of_ok hs slot rfl) hvalue
        simp only
        split
        · exact hloaded
        · exact hloaded.insert (Operand.Form.named_slot hdst) hvalue

theorem yields_followPointers (hd : Legible n d.values) (hframe : frame < 10 ^ nameDigits n)
    (idx : Int) (hexprs : ∀ e ∈ exprs, e.Brief n) {a : Action} (ha : a.Below n) :
    Yields n (fun d => Legible n d.values) (followPointers d frame idx exprs a) := by
  unfold followPointers
  split
  · next dst src =>
    have hdst := ha dst List.mem_cons_self
    have hsrc := ha src (by simp [Action.operands])
    have hstore := yields_storeBehind hd hframe idx hexprs hdst src.form
    cases hs : storeBehind d frame idx exprs dst.form src.form with
    | error fault => exact hstore.of_error hs
    | ok d => exact yields_loadBehind (hstore.of_ok hs) hframe hexprs hdst hsrc
  · exact hd

theorem yields_apply {s : State} (h : Legible n s.values) (hframe : s.frame < 10 ^ nameDigits n)
    (idx : Int) {ins : Instruction} (hins : ins.action.Below n)
    (hexprs : ∀ e ∈ exprs, e.Brief n) :
    Yields n (fun s => Legible n s.values) (s.apply idx ins exprs) := by
  have hfollow := yields_followPointers (legible_mark h idx hins hexprs) hframe idx hexprs hins
  unfold apply
  cases hd : followPointers (s.mark idx ins exprs) s.frame idx exprs ins.action with
  | error fault => exact hfollow.of_error hd
  | ok d => exact hfollow.of_ok hd

/-! ## Frames -/

theorem legible_initial {setup : Setup} (hcontext : Brief n setup.context.toList)
    (hbase : Brief n setup.frameBase.toList) (idx pc : Int) :
    Legible n (State.initial setup idx pc).values := by
  refine Legible.insert (Legible.insert ?_ (Slot.named_register _) hcontext)
    (Slot.named_register _) hbase
  refine Legible.foldl ?_ .empty
  intro values hvalues e he
  obtain ⟨r, -, rfl⟩ := List.mem_map.mp he
  exact hvalues.insert (Slot.named_register r) (brief_empty n)

theorem legible_newFrame {setup : Setup} (hbase : Brief n setup.frameBase.toList) {caller : State}
    (h : Legible n caller.values) : Legible n (newFrame setup caller).values := by
  refine Legible.insert (Legible.foldl ?_ (Legible.foldl ?_ .empty)) (Slot.named_register _) hbase
  · intro values hvalues r _
    exact hvalues.insert (Slot.named_register r) (brief_empty n)
  · intro values hvalues r _
    exact hvalues.insert (Slot.named_register r) (h.brief_getD r.slot)

theorem yields_carrySlots {caller : State} (hframe : caller.frame < 10 ^ nameDigits n)
    {es : List (Slot × Cell)} (hes : ∀ e ∈ es, Slot.Named n e.1 ∧ Brief n e.2.value.toList)
    (hd : Legible n d.values) :
    Yields n (fun d => Legible n d.values) (carrySlots caller d es) := by
  induction es generalizing d with
  | nil => exact hd
  | cons e es ih =>
    obtain ⟨hname, hvalue⟩ := hes e List.mem_cons_self
    have hlocation := Slot.yields_location hname (Nat.le_refl (nameDigits n))
    have ih := fun {d} => ih (d := d) fun e' he' => hes e' (List.mem_cons_of_mem _ he')
    unfold carrySlots carrySlot
    cases hl : Slot.location e.1 with
    | error fault => exact hlocation.of_error hl
    | ok found =>
      cases found with
      | none => exact ih hd
      | some l =>
        have hbelow := hlocation.of_ok hl l rfl
        refine ih (hd.insert (Slot.named_ofFrame ?_ hbelow.offset _) hvalue)
        cases hf : l.frame with
        | none => exact hframe
        | some owner => exact hbelow.frame owner hf

theorem yields_enter {setup : Setup} (hbase : Brief n setup.frameBase.toList) {caller : State}
    (h : Legible n caller.values) (hframe : caller.frame < 10 ^ nameDigits n) (idx : Int)
    (ins : Instruction) (hexprs : ∀ e ∈ exprs, e.Brief n) :
    Yields n (fun s => Legible n s.values) (enter setup caller idx ins exprs) := by
  have hentries : ∀ e ∈ caller.values.entries,
      Slot.Named n e.1 ∧ Decimal.Brief n e.2.value.toList := by
    intro e he
    exact h e.1 e.2 ((Table.mem_entries_iff _ _ _).mp he)
  have hcarry := yields_carrySlots hframe hentries (legible_newFrame hbase h)
  unfold enter
  cases hd : carrySlots caller (newFrame setup caller) caller.values.entries with
  | error fault => exact hcarry.of_error hd
  | ok d => exact (hcarry.of_ok hd).report hexprs

theorem legible_scratched {caller : State} (h : Legible n caller.values) :
    Legible n (scratched caller).values := by
  refine h.settle.foldl ?_
  intro values hvalues r _
  exact hvalues.insert (Slot.named_register r) (brief_empty n)

theorem yields_returnSlots (caller : State) {inner : State} (hinner : Legible n inner.values)
    {es : List (Slot × Int)} (hes : ∀ e ∈ es, Slot.Named n e.1) (hd : Legible n d.values) :
    Yields n (fun d => Legible n d.values) (returnSlots caller inner d es) := by
  induction es generalizing d with
  | nil => exact hd
  | cons e es ih =>
    have hlocation := Slot.yields_location (hes e List.mem_cons_self) (Nat.le_refl (nameDigits n))
    have ih := fun {d} => ih (d := d) fun e' he' => hes e' (List.mem_cons_of_mem _ he')
    unfold returnSlots returnSlot
    cases hl : Slot.location e.1 with
    | error fault => exact hlocation.of_error hl
    | ok found =>
      cases found with
      | none => exact ih hd
      | some l =>
        obtain ⟨frame, offset⟩ := l
        have hbelow := hlocation.of_ok hl _ rfl
        cases frame with
        | none => exact ih hd
        | some owner =>
          by_cases howner : caller.frame < owner
          · simp only [if_pos howner]
            exact ih hd
          · simp only [if_neg howner]
            refine ih ?_
            simp only
            split
            · next c hc =>
              exact hd.insert (Slot.named_ofFrame (hbelow.frame owner rfl) hbelow.offset _)
                (hinner e.1 c hc).2
            · exact hd

/-- What the callee wrote stands under names that it knows, so they can be read. -/
theorem yields_leave {caller inner : State} (hcaller : Legible n caller.values)
    (hinner : Legible n inner.values) (htidy : inner.Tidy) (idx : Int) (ins : Instruction) :
    Yields n (fun s => Legible n s.values) (leave caller inner idx ins) := by
  have hnamed : ∀ e ∈ inner.writers.entries, Slot.Named n e.1 := by
    intro e he
    have hknown := htidy.known e.1 e.2 ((Table.mem_entries_iff _ _ _).mp he)
    obtain ⟨c, hc⟩ := Option.isSome_iff_exists.mp hknown
    exact (hinner e.1 c hc).1
  have hreturn := yields_returnSlots caller hinner hnamed (legible_scratched hcaller)
  unfold leave
  cases hd : returnSlots caller inner (scratched caller) inner.writers.entries with
  | error fault => exact hreturn.of_error hd
  | ok d =>
    exact (hreturn.of_ok hd).insert (Slot.named_register _) (hinner.brief_getD Register.result.slot)

end State

namespace Machine

variable {n : Nat}

/-- All states are legible, and so are the values that new frames start with. -/
structure Brief (n : Nat) (m : Machine) : Prop where
  context : Decimal.Brief n m.setup.context.toList
  frameBase : Decimal.Brief n m.setup.frameBase.toList
  states : ∀ s ∈ m.state :: m.callers, Legible n s.values

theorem brief_start {setup : Setup} (hcontext : Decimal.Brief n setup.context.toList)
    (hbase : Decimal.Brief n setup.frameBase.toList) : (start setup).Brief n where
  context := hcontext
  frameBase := hbase
  states := by
    intro s hs
    rw [List.mem_singleton.mp hs]
    exact State.legible_initial hcontext hbase 0 0

theorem Brief.withState {m : Machine} (h : m.Brief n) {s : State} (hs : Legible n s.values)
    {callers : List State} (hcallers : callers ⊆ m.state :: m.callers) (unbalanced : Nat) :
    Brief n ⟨m.setup, s, callers, unbalanced⟩ where
  context := h.context
  frameBase := h.frameBase
  states := by
    intro t ht
    rcases List.mem_cons.mp ht with rfl | ht
    · exact hs
    · exact h.states t (hcallers ht)

theorem yields_step {m : Machine} (h : m.Brief n) (hstack : Stacked (m.state :: m.callers))
    (hdepth : m.callers.length < 10 ^ nameDigits n) {line : LogLine}
    (hline : line.content.Brief n) : Yields n (Brief n) (m.step line) := by
  obtain ⟨htidy, hframe, -⟩ := hstack
  have hstate := h.states m.state List.mem_cons_self
  rw [← hframe] at hdepth
  unfold step
  cases hc : line.content with
  | instruction ins exprs =>
    rw [hc] at hline
    obtain ⟨hins, hexprs⟩ := hline
    simp only [execute]
    split
    · have henter := State.yields_enter h.frameBase hstate hdepth line.idx ins hexprs
      unfold call
      cases hs : State.enter m.setup m.state line.idx ins exprs with
      | error fault => exact henter.of_error hs
      | ok s => exact h.withState (henter.of_ok hs) (List.Subset.refl _) _
    · unfold exit
      split
      · next hcallers =>
        refine h.withState (State.legible_initial h.context h.frameBase _ _) ?_ _
        rw [hcallers]
        exact List.nil_subset _
      · next caller more hcallers =>
        have hcaller : caller ∈ m.state :: m.callers := by simp [hcallers]
        have hmore : more ⊆ m.state :: m.callers := by
          rw [hcallers]
          exact List.subset_cons_of_subset _ (List.subset_cons_self _ _)
        have hleave := State.yields_leave (h.states caller hcaller) hstate htidy line.idx ins
        cases hs : State.leave caller m.state line.idx ins with
        | error fault => exact hleave.of_error hs
        | ok s => exact h.withState (hleave.of_ok hs) hmore _
    · have happly := State.yields_apply hstate hdepth line.idx hins hexprs
      unfold Machine.apply
      cases hs : m.state.apply line.idx ins exprs with
      | error fault => exact happly.of_error hs
      | ok s => exact h.withState (happly.of_ok hs) (List.subset_cons_self _ _) _
  | source note | notice what | unrecognized fault =>
    exact h.withState hstate.settle (List.subset_cons_self _ _) _

theorem length_callers_le {m m' : Machine} {line : LogLine} (h : m.step line = .ok m') :
    m'.callers.length ≤ m.callers.length + 1 := by
  obtain ⟨hcount, hunb⟩ := step_depth h
  have hcall : (if line.isCall = true then 1 else 0) ≤ 1 := by
    split
    · exact Nat.le_refl 1
    · exact Nat.zero_le 1
  rcases hunb with hsame | ⟨hmore, hexit, -⟩
  · omega
  · rw [if_pos hexit] at hcount
    omega

/-- A run over lines without long numerals goes through, or fails within `n`, if there are not so
many lines that the number of a frame becomes too long. -/
theorem yields_trace {m : Machine} (h : m.Brief n) (hstack : Stacked (m.state :: m.callers))
    {lines : List LogLine} (hdepth : m.callers.length + lines.length ≤ 10 ^ nameDigits n)
    (hlines : ∀ l ∈ lines, l.content.Brief n) : Yields n (fun _ => True) (m.trace lines) := by
  induction lines generalizing m with
  | nil => trivial
  | cons line more ih =>
    rw [List.length_cons] at hdepth
    have hstep := yields_step h hstack (by omega) (hlines line List.mem_cons_self)
    unfold trace
    cases hs : m.step line with
    | error fault => exact hstep.of_error hs
    | ok m' =>
      have hcount := length_callers_le hs
      have ih := ih (hstep.of_ok hs) (step_stacked hs hstack) (by omega)
        fun l hl => hlines l (List.mem_cons_of_mem _ hl)
      simp only
      cases ht : m'.trace more with
      | error fault => exact ih.of_error ht
      | ok ms => trivial

end Machine
end VerifierTrace
