import VerifierTrace.Proofs.LogLine.Numbered
import VerifierTrace.Proofs.Machine.Run

/-!
# VerifierTrace.Proofs.Machine.Access

Loads and stores through a register that holds a stack pointer.

A store through it is the store that names the slot as memory behind the frame pointer
(`stores_agree`): both write that slot and leave the rest of the stack as it is.

A load through it reads the slot and copies its value (`load_through_pointer`), unless its
destination is the register with the pointer. Then the register is emptied before the pointer is
followed, so that the load finds no slot at all.

* `LogLine.Assigns`: the line is an assignment.
* `State.Stored`, `State.Loaded`, `State.Emptied`: what these accesses leave behind.
-/

namespace VerifierTrace

/-- The line assigns one operand to another, with `exprs` reported behind it. -/
def LogLine.Assigns (line : LogLine) (dst src : Operand.Form) (exprs : List StateExpr) : Prop :=
  ∃ opcode pc e e',
    line.content = .instruction ⟨opcode, pc, .compute .assign ⟨dst, e⟩ ⟨src, e'⟩⟩ exprs

namespace State

/-- What a store to one stack slot leaves behind on the stack. -/
structure Stored (s s' : State) (idx : Int) (slot : Slot) : Prop where
  frame : s'.frame = s.frame
  effect : s'.effectOf? slot = some .write
  writer : s'.writerOf? slot = some idx
  others : ∀ k, k ≠ slot → (Slot.stackLocation? k).isSome →
    s'.values.get? k = (s.values.get? k).map Cell.untouched ∧ s'.writerOf? k = s.writerOf? k

/-- What a load of one stack slot into `dst` leaves behind. -/
structure Loaded (s s' : State) (idx : Int) (slot dst : Slot) : Prop where
  frame : s'.frame = s.frame
  effect : s'.effectOf? slot = some .read
  value : s'.valueOf? slot = some (s.valueD slot)
  writer : s'.writerOf? slot = s.writerOf? slot
  copy : s'.valueOf? dst = some (s.valueD slot)
  copier : s'.writerOf? dst = some idx

/-- What a load leaves behind that empties its pointer before following it: no stack slot is
touched, and the pointer is lost. -/
structure Emptied (s s' : State) (idx : Int) (dst : Slot) : Prop where
  frame : s'.frame = s.frame
  stack : ∀ k, (Slot.stackLocation? k).isSome →
    s'.values.get? k = (s.values.get? k).map Cell.untouched ∧ s'.writerOf? k = s.writerOf? k
  effect : s'.effectOf? dst = some .update
  value : s'.valueOf? dst = some ""
  writer : s'.writerOf? dst = some idx

variable {s s' : State} {idx : Int} {ins : Instruction} {dst src : Operand.Form}
  {exprs : List StateExpr} {base : Register} {offset : Int} {l : Slot.Location} {k : Slot}

theorem untouched_of_apply (h : s.apply idx ins exprs = .ok s') (hread : k ∉ ins.reads)
    (hwrite : k ∉ ins.writes) (hstored : s.stored ins exprs ≠ .ok (some k))
    (hloaded : s.loaded ins exprs ≠ .ok (some k)) (hquiet : reported? exprs k = none) :
    s'.values.get? k = (s.values.get? k).map Cell.untouched ∧ s'.writerOf? k = s.writerOf? k := by
  obtain ⟨target, origin, htarget, -, -⟩ := apply_ok_iff.mp h
  constructor
  · rw [get?_apply_of_untouched h hread hwrite hstored hloaded, hquiet, Option.none_or, valueOf?,
      Option.map_map]
    rfl
  · rw [writerOf?_apply h htarget, if_neg]
    rintro (hmem | rfl)
    · exact hwrite hmem
    · exact hstored htarget

theorem not_mem_of_stack {slots : List Slot}
    (hslots : ∀ slot ∈ slots, Slot.stackLocation? slot = none)
    (hk : (Slot.stackLocation? k).isSome) : k ∉ slots := by
  intro hmem
  rw [hslots k hmem] at hk
  cases hk

/-! ## The operands of an access -/

theorem eq_memory_of_pointer? {f : Operand.Form} (h : f.pointer? = some (base, offset)) :
    f.address? = some (base, offset) ∧ f.slot = Slot.memory := by
  obtain ⟨haddress, hbase⟩ := Option.filter_eq_some_iff.mp h
  refine ⟨haddress, ?_⟩
  cases f with
  | memory width r z =>
    cases haddress
    have hne : base ≠ Register.framePointer := by simpa using hbase
    rw [Operand.Form.slot, if_neg hne]
  | register _ | lowerHalf _ | constant => cases haddress

theorem behind_of_framePointer {f : Operand.Form}
    (h : f.address? = some (Register.framePointer, offset)) : s.behind ins exprs f = .ok none := by
  have hpointer : f.pointer? = none := by rw [Operand.Form.pointer?, h]; rfl
  simp only [behind, hpointer]

/-- A pointer that the line neither writes nor reports is followed as it was before. -/
theorem behind_of_pointer? {f : Operand.Form} (h : f.pointer? = some (base, offset))
    (hwrite : base.slot ∉ ins.writes) (hquiet : reported? exprs base.slot = none) :
    s.behind ins exprs f = Slot.reach s.frame (s.valueD base.slot) offset := by
  simp only [behind, h, held, hquiet, Option.getD_none, if_neg hwrite]

/-- A pointer that the line overwrites is followed nowhere, if nothing is reported for it. -/
theorem behind_of_overwritten {f : Operand.Form} (h : f.pointer? = some (base, offset))
    (hwrite : base.slot ∈ ins.writes) (hquiet : reported? exprs base.slot = none) :
    s.behind ins exprs f = .ok none := by
  simp only [behind, h, held, hquiet, Option.getD_none, if_pos hwrite]
  exact Slot.reach_empty s.frame offset

section Assigned

variable (hassigned : ins.action.assigned? = some (dst, src))

include hassigned

theorem stored_of_assigned? : s.stored ins exprs = s.behind ins exprs dst := by
  simp only [stored, hassigned]

theorem loaded_of_assigned? : s.loaded ins exprs = s.behind ins exprs src := by
  simp only [loaded, hassigned]

/-! ## Stores -/

theorem reads_of_store (hdst : dst.address? = some (base, offset)) (hsrc : src.address? = none) :
    ∀ slot ∈ ins.reads, Slot.stackLocation? slot = none := by
  intro slot hslot
  rw [(Instruction.eq_of_assigned? hassigned).1] at hslot
  have hread : slot = base.slot ∨ src.isConstant = false ∧ slot = src.slot := by
    simpa [Action.computeReads, mem_firstOnes, hdst, hsrc] using hslot
  rcases hread with rfl | ⟨hconstant, rfl⟩
  · exact Slot.stackLocation?_register base
  · cases src with
    | register r => exact Slot.stackLocation?_register r
    | lowerHalf r => exact Slot.stackLocation?_register r
    | memory width r z => cases hsrc
    | constant => cases hconstant

theorem stored_of_pointer? (hdst : dst.pointer? = some (base, offset))
    (hquiet : reported? exprs base.slot = none) :
    s.stored ins exprs = Slot.reach s.frame (s.valueD base.slot) offset := by
  rw [stored_of_assigned? hassigned]
  refine behind_of_pointer? hdst ?_ hquiet
  rw [(Instruction.eq_of_assigned? hassigned).2, (eq_memory_of_pointer? hdst).2,
    List.mem_singleton]
  exact base.slot_ne_memory

/-- A store through a register that holds a stack pointer writes the slot that the pointer denotes
in the frame at hand, and touches no other stack slot. -/
theorem stored_of_apply (hdst : dst.pointer? = some (base, offset)) (hsrc : src.address? = none)
    (hvalue : Slot.location (s.valueD base.slot) = .ok (some l)) {slot : Slot}
    (hslot : slot = Slot.ofFrame (l.frame.getD s.frame : Nat) (l.offset + offset) s.frame)
    (hexprs : ∀ e ∈ exprs, e.slot = slot) (h : s.apply idx ins exprs = .ok s') :
    Stored s s' idx slot ∧ s'.valueOf? slot =
      some (((reported? exprs slot).bind known?).getD (s.held ins exprs src.slot)) := by
  obtain ⟨target, origin, htarget, horigin, -⟩ := apply_ok_iff.mp h
  have hquiet : ∀ k, k ≠ slot → reported? exprs k = none :=
    fun k hk => reported?_eq_none fun e he heq => hk (heq.symm.trans (hexprs e he))
  have hbase : base.slot ≠ slot := by
    rw [hslot]
    exact Slot.register_ne_ofFrame base _ _ _
  have hfound : target = some slot := by
    rw [stored_of_pointer? hassigned hdst (hquiet _ hbase)] at htarget
    rw [hslot]
    exact ((Slot.reach_ok_iff hvalue).mp htarget).2
  have hnoload : s.loaded ins exprs = .ok none := by
    rw [loaded_of_assigned? hassigned, behind_of_address?_none hsrc]
  subst hfound
  have hcell := get?_apply_stored h hassigned htarget hnoload
  refine ⟨⟨frame_of_apply h, ?_, ?_, ?_⟩, ?_⟩
  · rw [effectOf?, hcell]
    rfl
  · rw [writerOf?_apply h htarget, if_pos (.inr rfl)]
  · intro k hk hstack
    refine untouched_of_apply h (not_mem_of_stack ?_ hstack) (not_mem_of_stack ?_ hstack) ?_ ?_
      (hquiet k hk)
    · exact reads_of_store hassigned (eq_memory_of_pointer? hdst).1 hsrc
    · rw [(Instruction.eq_of_assigned? hassigned).2, (eq_memory_of_pointer? hdst).2]
      simp [Slot.stackLocation?_memory]
    · rw [htarget]
      simpa using hk.symm
    · rw [hnoload]
      simp
  · rw [valueOf?, hcell]
    rfl

theorem stored_of_apply_framePointer
    (hdst : dst.address? = some (Register.framePointer, offset)) (hsrc : src.address? = none)
    (hexprs : ∀ e ∈ exprs, e.slot = Slot.stack offset) (h : s.apply idx ins exprs = .ok s') :
    Stored s s' idx (Slot.stack offset) ∧
      s'.valueOf? (Slot.stack offset) = some (s.held ins exprs (Slot.stack offset)) := by
  have hslot : dst.slot = Slot.stack offset := by
    cases dst with
    | memory width r z =>
      cases hdst
      rw [Operand.Form.slot, if_pos rfl]
    | register _ | lowerHalf _ | constant => cases hdst
  have hwrites : ins.writes = [Slot.stack offset] := by
    rw [(Instruction.eq_of_assigned? hassigned).2, hslot]
  have hnostore : s.stored ins exprs = .ok none := by
    rw [stored_of_assigned? hassigned, behind_of_framePointer hdst]
  have hnoload : s.loaded ins exprs = .ok none := by
    rw [loaded_of_assigned? hassigned, behind_of_address?_none hsrc]
  have hreads := reads_of_store hassigned hdst hsrc
  have hmem : Slot.stack offset ∈ ins.writes := by
    rw [hwrites]
    exact List.mem_singleton.mpr rfl
  have hunread : Slot.stack offset ∉ ins.reads :=
    not_mem_of_stack hreads (by rw [Slot.stackLocation?_stack]; rfl)
  have hcell := get?_apply_of_marked (k := Slot.stack offset) h (by simp [hnostore]) hnoload
  refine ⟨⟨frame_of_apply h, ?_, ?_, ?_⟩, ?_⟩
  · rw [effectOf?, hcell, effect_mark (.inr hmem), if_neg (not_not_intro hmem), if_neg hunread]
  · rw [writerOf?_apply h hnostore, if_pos (.inl hmem)]
  · intro k hk hstack
    refine untouched_of_apply h (not_mem_of_stack hreads hstack) ?_ (by simp [hnostore])
      (by simp [hnoload]) ?_
    · rw [hwrites, List.mem_singleton]
      exact hk
    · exact reported?_eq_none fun e he heq => hk (heq.symm.trans (hexprs e he))
  · rw [valueOf?, hcell, value_mark (.inr hmem)]

/-! ## Loads -/

theorem reads_of_load (hdst : dst.address? = none) (hsrc : src.pointer? = some (base, offset)) :
    base.slot ∈ ins.reads ∧ ∀ slot ∈ ins.reads, Slot.stackLocation? slot = none := by
  obtain ⟨haddress, hmemory⟩ := eq_memory_of_pointer? hsrc
  rw [(Instruction.eq_of_assigned? hassigned).1]
  simp [Action.computeReads, mem_firstOnes, hdst, haddress, hmemory, Slot.stackLocation?_register,
    Slot.stackLocation?_memory]

/-- A load through a register other than its destination follows the pointer. -/
theorem loaded_of_pointer? (hsrc : src.pointer? = some (base, offset)) (hne : dst.slot ≠ base.slot)
    (hquiet : reported? exprs base.slot = none) :
    s.loaded ins exprs = Slot.reach s.frame (s.valueD base.slot) offset := by
  rw [loaded_of_assigned? hassigned]
  refine behind_of_pointer? hsrc ?_ hquiet
  rw [(Instruction.eq_of_assigned? hassigned).2, List.mem_singleton]
  exact hne.symm

theorem loaded_of_apply {d : Register} (hd : dst.slot = d.slot) (hdst : dst.address? = none)
    (hsrc : src.pointer? = some (base, offset)) (hne : d.slot ≠ base.slot)
    (hvalue : Slot.location (s.valueD base.slot) = .ok (some l))
    (h : s.apply idx ins [] = .ok s') :
    Loaded s s' idx (Slot.ofFrame (l.frame.getD s.frame : Nat) (l.offset + offset) s.frame)
      d.slot := by
  obtain ⟨target, origin, htarget, horigin, -⟩ := apply_ok_iff.mp h
  have hnostore : s.stored ins [] = .ok none := by
    rw [stored_of_assigned? hassigned, behind_of_address?_none hdst]
  have hfound : origin =
      some (Slot.ofFrame (l.frame.getD s.frame : Nat) (l.offset + offset) s.frame) := by
    rw [loaded_of_pointer? hassigned hsrc (hd ▸ hne) rfl] at horigin
    exact ((Slot.reach_ok_iff hvalue).mp horigin).2
  rw [hfound] at horigin
  -- from here on the slot is any that is no register
  generalize hslot : Slot.ofFrame (l.frame.getD s.frame : Nat) (l.offset + offset) s.frame = slot
    at horigin
  have hother : slot ≠ d.slot := by
    rw [← hslot]
    exact (Slot.register_ne_ofFrame d _ _ _).symm
  have hwrites : ins.writes = [d.slot] := by rw [(Instruction.eq_of_assigned? hassigned).2, hd]
  have hunwritten : slot ∉ ins.writes := by
    rw [hwrites, List.mem_singleton]
    exact hother
  have hheld : s.held ins [] slot = s.valueD slot := by
    rw [held, if_neg hunwritten]
    rfl
  have hcell := get?_apply_loaded h hassigned (hd ▸ hother) hnostore horigin
  have hcopy := get?_apply_destination h hassigned rfl hnostore horigin
  rw [hd] at hcopy
  rw [hheld] at hcell hcopy
  refine ⟨frame_of_apply h, ?_, ?_, ?_, ?_, ?_⟩
  · rw [effectOf?, hcell]
    rfl
  · rw [valueOf?, hcell]
    rfl
  · rw [writerOf?_apply h hnostore, if_neg (by simpa using hunwritten)]
  · rw [valueOf?, hcopy]
    rfl
  · rw [writerOf?_apply h hnostore, hwrites, if_pos (.inl (List.mem_singleton.mpr rfl))]

theorem emptied_of_apply (hdst : dst.address? = none) (hsrc : src.pointer? = some (base, offset))
    (heq : dst.slot = base.slot) :
    ∃ s', s.apply idx ins [] = .ok s' ∧ Emptied s s' idx base.slot := by
  have hwrites : ins.writes = [base.slot] := by
    rw [(Instruction.eq_of_assigned? hassigned).2, heq]
  have hwrite : base.slot ∈ ins.writes := by
    rw [hwrites]
    exact List.mem_singleton.mpr rfl
  have hnostore : s.stored ins [] = .ok none := by
    rw [stored_of_assigned? hassigned, behind_of_address?_none hdst]
  have hnoload : s.loaded ins [] = .ok none := by
    rw [loaded_of_assigned? hassigned, behind_of_overwritten hsrc hwrite rfl]
  obtain ⟨hread, hreads⟩ := reads_of_load hassigned hdst hsrc
  obtain ⟨s', h⟩ : ∃ s', s.apply idx ins [] = .ok s' :=
    exists_apply_iff.mpr ⟨⟨_, hnostore⟩, _, hnoload⟩
  have hcell := get?_apply_of_marked (k := base.slot) h (by simp [hnostore]) hnoload
  refine ⟨s', h, frame_of_apply h, ?_, ?_, ?_, ?_⟩
  · intro k hstack
    refine untouched_of_apply h (not_mem_of_stack hreads hstack) (not_mem_of_stack ?_ hstack)
      (by simp [hnostore]) (by simp [hnoload]) rfl
    rw [hwrites]
    simp [Slot.stackLocation?_register]
  · rw [effectOf?, hcell, effect_mark (.inl hread), if_neg (not_not_intro hwrite), if_pos hread]
  · rw [valueOf?, hcell, value_mark (.inl hread), held, if_pos hwrite]
    rfl
  · rw [writerOf?_apply h hnostore, if_pos (.inl hwrite)]

end Assigned

end State

namespace Machine

open LogLine

theorem step_of_assigns {line : LogLine} {dst src : Operand.Form} {exprs : List StateExpr}
    (h : line.Assigns dst src exprs) : ∃ ins : Instruction,
      ins.action.assigned? = some (dst, src) ∧
        ∀ m : Machine, m.step line = m.apply line.idx ins exprs := by
  obtain ⟨opcode, pc, e, e', hcontent⟩ := h
  refine ⟨_, rfl, fun m => step_of_staysInFrame m hcontent ?_⟩
  simp [staysInFrame, isInstruction, isCall, isExit, instruction?, hcontent]

section Access

variable (m : Machine) {line : LogLine} {b : Register} {l : Slot.Location} {width : Width} {k : Int}

/-- A load through a register that holds a stack pointer, with nothing reported: the slot behind the
pointer is read, and the destination takes its value. It fails only if the slot has no name. If the
destination is the register itself, no slot is read, and the register is left without a value. -/
theorem load_through_pointer {d : Register} {dst : Operand.Form}
    (hdst : dst = .register d ∨ dst = .lowerHalf d) (hb : b ≠ Register.framePointer)
    (hline : line.Assigns dst (.memory width b k) [])
    (hvalue : Slot.location (m.state.valueD b.slot) = .ok (some l)) :
    (d ≠ b →
      ((∃ m', m.step line = .ok m') ↔ Decimal.Writable (l.offset + k)) ∧
      ∀ m', m.step line = .ok m' → m'.callers = m.callers ∧
        State.Loaded m.state m'.state line.idx
          (Slot.ofFrame (l.frame.getD m.state.frame : Nat) (l.offset + k) m.state.frame) d.slot) ∧
    (d = b → ∃ m', m.step line = .ok m' ∧ m'.callers = m.callers ∧
      State.Emptied m.state m'.state line.idx d.slot) := by
  obtain ⟨ins, hassigned, hstep⟩ := step_of_assigns hline
  have haddress : dst.address? = none := by rcases hdst with rfl | rfl <;> rfl
  have hd : dst.slot = d.slot := by rcases hdst with rfl | rfl <;> rfl
  have hpointer : (Operand.Form.memory width b k).pointer? = some (b, k) := by
    simp [Operand.Form.pointer?, Operand.Form.address?, hb]
  rw [hstep]
  constructor
  · intro hne
    have hslot : d.slot ≠ b.slot := fun heq => hne (Register.slot_injective heq)
    constructor
    · rw [exists_apply_iff, State.exists_apply_iff, State.stored_of_assigned? hassigned,
        State.behind_of_address?_none haddress,
        State.loaded_of_pointer? hassigned hpointer (hd ▸ hslot) rfl, Slot.exists_reach_iff hvalue]
      exact and_iff_right ⟨none, rfl⟩
    · intro m' h
      obtain ⟨s, hs, rfl⟩ := apply_ok_iff.mp h
      exact ⟨rfl, State.loaded_of_apply hassigned hd haddress hpointer hslot hvalue hs⟩
  · rintro rfl
    obtain ⟨s, hs, hemptied⟩ :
        ∃ s, m.state.apply line.idx ins [] = .ok s ∧ State.Emptied m.state s line.idx d.slot :=
      State.emptied_of_apply hassigned haddress hpointer hd
    exact ⟨_, apply_ok_iff.mpr ⟨s, hs, rfl⟩, rfl, hemptied⟩

/-- A pointer to the stack of a caller. -/
def passedPointer : List String :=
  ["0: (7a) *(u64 *)(r10 -8) = 5 ; fp-8_w=5", "1: (bf) r1 = r10 ; R1_w=fp0",
    "2: (85) call pc+2 ; R1=fp[0]-16"]

theorem passedPointer_load : ∃ m m' : Machine, Reachable {} m ∧ m.state.frame = 1 ∧
    m.step (ofText 3 "5: (79) r2 = *(u64 *)(r1 +8)") = .ok m' ∧
      State.Loaded m.state m'.state 3 "fp[0]-8" "r2" ∧ m'.state.valueOf? "r2" = some "5" ∧
        m'.state.writerOf? "fp[0]-8" = some 0 := by
  let ms := (run {} (ofLog passedPointer)).toOption.getD []
  let m := last (start {}) ms
  let m' := (m.step (ofText 3 "5: (79) r2 = *(u64 *)(r1 +8)")).toOption.getD m
  have hrun : run {} (ofLog passedPointer) = .ok ms := ok_of_isSome_toOption [] (by decide +kernel)
  have hstep : m.step (ofText 3 "5: (79) r2 = *(u64 *)(r1 +8)") = .ok m' :=
    ok_of_isSome_toOption m (by decide +kernel)
  have hline : Assigns (ofText 3 "5: (79) r2 = *(u64 *)(r1 +8)") (.register ⟨2⟩)
      (.memory .u64 ⟨1⟩ 8) [] :=
    ⟨⟨.ldx, 7, .register⟩, some 5, ⟨-20, 2⟩, ⟨-15, 15⟩, by decide +kernel⟩
  have hshape : m.state.frame = 1 ∧
      Slot.location (m.state.valueD (Register.slot ⟨1⟩)) = .ok (some ⟨some 0, -16⟩) := by
    decide +kernel
  obtain ⟨hframe, hvalue⟩ := hshape
  have hslot : Slot.ofFrame (0 : Nat) (-16 + 8) m.state.frame = "fp[0]-8" := by
    rw [hframe]
    decide
  obtain ⟨hload, -⟩ := load_through_pointer m (.inl rfl) (by decide) hline hvalue
  have hloaded : State.Loaded m.state m'.state 3 (Slot.ofFrame (0 : Nat) (-16 + 8) m.state.frame)
      "r2" := ((hload (by decide)).2 m' hstep).2
  rw [hslot] at hloaded
  exact ⟨m, m', ⟨_, _, hrun, rfl⟩, hframe, hstep, hloaded, by decide +kernel⟩

/-- A pointer to a stack slot that holds a value. -/
def ownPointer : List String :=
  ["0: (bf) r1 = r10 ; R1_w=fp0", "1: (07) r1 += -8 ; R1_w=fp-8",
    "2: (7a) *(u64 *)(r10 -8) = 5 ; fp-8_w=5"]

/-- A load through the pointer into its own register reads no stack slot, and copies nothing. -/
theorem ownPointer_lost : ∃ m m' : Machine, Reachable {} m ∧
    Slot.location (m.state.valueD "r1") = .ok (some ⟨none, -8⟩) ∧
      m.state.valueOf? "fp-8" = some "5" ∧
      m.step (ofText 3 "3: (79) r1 = *(u64 *)(r1 +0)") = .ok m' ∧
      m'.state.effectOf? "fp-8" = some .none ∧ m'.state.valueOf? "r1" = some "" := by
  let ms := (run {} (ofLog ownPointer)).toOption.getD []
  let m := last (start {}) ms
  let m' := (m.step (ofText 3 "3: (79) r1 = *(u64 *)(r1 +0)")).toOption.getD m
  have hrun : run {} (ofLog ownPointer) = .ok ms := ok_of_isSome_toOption [] (by decide +kernel)
  have hshape : Slot.location (m.state.valueD "r1") = .ok (some ⟨none, -8⟩) ∧
      m.state.valueOf? "fp-8" = some "5" := by decide +kernel
  have hstep : m.step (ofText 3 "3: (79) r1 = *(u64 *)(r1 +0)") = .ok m' :=
    ok_of_isSome_toOption m (by decide +kernel)
  exact ⟨m, m', ⟨_, _, hrun, rfl⟩, hshape.1, hshape.2, hstep, by decide +kernel⟩

/-- A store through a register that holds a stack pointer of the frame at hand, and the store that
names the slot as memory behind the frame pointer, behind which at most that slot is reported: both
write it, and leave the other stack slots as they are. A value that both report is its value. The
store through the pointer fails only if the slot has no name. -/
theorem stores_agree {direct : LogLine} {width' : Width} {src : Operand.Form}
    {exprs exprs' : List StateExpr} (hb : b ≠ Register.framePointer) (hsrc : src.address? = none)
    (hline : line.Assigns (.memory width b k) src exprs)
    (hdirect : direct.Assigns (.memory width' .framePointer (l.offset + k)) src exprs')
    (hvalue : Slot.location (m.state.valueD b.slot) = .ok (some l))
    (hframe : l.frame.getD m.state.frame = m.state.frame)
    (hexprs : ∀ e ∈ exprs, e.slot = Slot.stack (l.offset + k))
    (hexprs' : ∀ e ∈ exprs', e.slot = Slot.stack (l.offset + k)) :
    ((∃ m₁, m.step line = .ok m₁) ↔ Decimal.Writable (l.offset + k)) ∧
    (∃ m₂, m.step direct = .ok m₂) ∧
    ∀ m₁ m₂, m.step line = .ok m₁ → m.step direct = .ok m₂ →
      State.Stored m.state m₁.state line.idx (Slot.stack (l.offset + k)) ∧
      State.Stored m.state m₂.state direct.idx (Slot.stack (l.offset + k)) ∧
      ∀ value, value ≠ "" → reported? exprs (Slot.stack (l.offset + k)) = some value →
        reported? exprs' (Slot.stack (l.offset + k)) = some value →
          m₁.state.valueOf? (Slot.stack (l.offset + k)) = some value ∧
            m₂.state.valueOf? (Slot.stack (l.offset + k)) = some value := by
  obtain ⟨ins, hassigned, hstep⟩ := step_of_assigns hline
  obtain ⟨ins', hassigned', hstep'⟩ := step_of_assigns hdirect
  have hpointer : (Operand.Form.memory width b k).pointer? = some (b, k) := by
    simp [Operand.Form.pointer?, Operand.Form.address?, hb]
  have hslot : Slot.stack (l.offset + k) =
      Slot.ofFrame (l.frame.getD m.state.frame : Nat) (l.offset + k) m.state.frame := by
    rw [hframe, Slot.ofFrame_self]
  have hquiet : reported? exprs b.slot = none := by
    refine reported?_eq_none fun e he heq => ?_
    rw [hexprs e he, hslot] at heq
    exact Slot.register_ne_ofFrame b _ _ _ heq.symm
  rw [hstep, hstep']
  refine ⟨?_, ?_, ?_⟩
  · rw [exists_apply_iff, State.exists_apply_iff, State.loaded_of_assigned? hassigned,
      State.behind_of_address?_none hsrc, State.stored_of_pointer? hassigned hpointer hquiet,
      Slot.exists_reach_iff hvalue]
    exact and_iff_left ⟨none, rfl⟩
  · rw [exists_apply_iff, State.exists_apply_iff, State.stored_of_assigned? hassigned',
      State.loaded_of_assigned? hassigned', State.behind_of_address?_none hsrc,
      State.behind_of_framePointer rfl]
    exact ⟨⟨none, rfl⟩, none, rfl⟩
  · intro m₁ m₂ h₁ h₂
    obtain ⟨s₁, hs₁, rfl⟩ := apply_ok_iff.mp h₁
    obtain ⟨s₂, hs₂, rfl⟩ := apply_ok_iff.mp h₂
    obtain ⟨hstored₁, hvalue₁⟩ :=
      State.stored_of_apply hassigned hpointer hsrc hvalue hslot hexprs hs₁
    obtain ⟨hstored₂, hvalue₂⟩ := State.stored_of_apply_framePointer hassigned' rfl hsrc hexprs' hs₂
    refine ⟨hstored₁, hstored₂, ?_⟩
    intro value hne hreported hreported'
    have hknown : State.known? value = some value := if_neg (by simpa using hne)
    constructor
    · rw [hvalue₁, hreported, Option.bind_some, hknown, Option.getD_some]
    · rw [hvalue₂, State.held, hreported', Option.getD_some]

/-- A frame whose first argument points into its own stack, under the frame's number. -/
def framedPointer : List String := ["0: (85) call pc+2 ; R1=fp[1]-16"]

/-- Two stores to the base of the stack. -/
theorem framedPointer_store : ∃ m m₁ m₂ : Machine, Reachable {} m ∧ m.state.frame = 1 ∧
    m.step (ofText 1 "3: (7b) *(u64 *)(r1 +16) = r2 ; fp-0_w=7") = .ok m₁ ∧
      m.step (ofText 1 "3: (7b) *(u64 *)(r10 +0) = r2 ; fp0_w=7") = .ok m₂ ∧
      State.Stored m.state m₁.state 1 "fp-0" ∧ State.Stored m.state m₂.state 1 "fp-0" ∧
      m₁.state.valueOf? "fp-0" = some "7" ∧ m₂.state.valueOf? "fp-0" = some "7" := by
  let ms := (run {} (ofLog framedPointer)).toOption.getD []
  let m := last (start {}) ms
  let m₁ := (m.step (ofText 1 "3: (7b) *(u64 *)(r1 +16) = r2 ; fp-0_w=7")).toOption.getD m
  let m₂ := (m.step (ofText 1 "3: (7b) *(u64 *)(r10 +0) = r2 ; fp0_w=7")).toOption.getD m
  have hrun : run {} (ofLog framedPointer) = .ok ms := ok_of_isSome_toOption [] (by decide +kernel)
  have hshape : m.state.frame = 1 ∧
      Slot.location (m.state.valueD (Register.slot ⟨1⟩)) = .ok (some ⟨some 1, -16⟩) := by
    decide +kernel
  obtain ⟨hframe, hvalue⟩ := hshape
  have h₁ : m.step (ofText 1 "3: (7b) *(u64 *)(r1 +16) = r2 ; fp-0_w=7") = .ok m₁ :=
    ok_of_isSome_toOption m (by decide +kernel)
  have h₂ : m.step (ofText 1 "3: (7b) *(u64 *)(r10 +0) = r2 ; fp0_w=7") = .ok m₂ :=
    ok_of_isSome_toOption m (by decide +kernel)
  have hline : Assigns (ofText 1 "3: (7b) *(u64 *)(r1 +16) = r2 ; fp-0_w=7") (.memory .u64 ⟨1⟩ 16)
      (.register ⟨2⟩) [⟨"fp-0", "7", "fp-0_w", none⟩] :=
    ⟨⟨.stx, 7, .register⟩, some 3, ⟨-32, 16⟩, ⟨-13, 2⟩, by decide +kernel⟩
  have hdirect : Assigns (ofText 1 "3: (7b) *(u64 *)(r10 +0) = r2 ; fp0_w=7")
      (.memory .u64 .framePointer (-16 + 16)) (.register ⟨2⟩) [⟨"fp-0", "7", "fp0_w", none⟩] :=
    ⟨⟨.stx, 7, .register⟩, some 3, ⟨-31, 16⟩, ⟨-12, 2⟩, by decide +kernel⟩
  obtain ⟨hstored₁, hstored₂, hknown⟩ := (stores_agree m (by decide) rfl hline hdirect hvalue
    hframe.symm (by decide) (by decide)).2.2 m₁ m₂ h₁ h₂
  obtain ⟨hvalue₁, hvalue₂⟩ := hknown "7" (by decide) (by decide) (by decide)
  exact ⟨m, m₁, m₂, ⟨_, _, hrun, rfl⟩, hframe, h₁, h₂, hstored₁, hstored₂, hvalue₁, hvalue₂⟩

end Access

end Machine
end VerifierTrace
