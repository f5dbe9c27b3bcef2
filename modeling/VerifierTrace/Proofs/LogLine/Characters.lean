import VerifierTrace.Proofs.Instruction.Slots
import VerifierTrace.Proofs.LogLine.Parts
import VerifierTrace.Proofs.Notice.Settled
import VerifierTrace.Proofs.Sexp.RoundTrip
import VerifierTrace.Proofs.Text.Lines

/-!
# VerifierTrace.Proofs.LogLine.Characters

The characters in what a line holds, and its numbers.

A line has no characters but those of its text, those that lower case makes of them, and printable
ASCII in the names of registers and stack slots. So a class that is closed under lower case and has
printable ASCII (`Text.Closed`) has all characters of a line if it has those of the text. Two such
classes are used, all characters and those that end no line.

* `Content.Over P`: the characters of the content are of `P`, and its numbers can be written.
* `Content.over_of_partOf`, `Notice.over_settled`: so it is as the line was read, and after the notices.
-/

namespace VerifierTrace

namespace Text

/-- A class of characters with printable ASCII that lower case does not leave. -/
structure Closed (P : Char → Prop) : Prop where
  ascii : ∀ c, isPrintableAscii c = true → P c
  lower : ∀ cs, (∀ c ∈ cs, P c) → ∀ c ∈ lower cs, P c

theorem closed_true : Closed fun _ => True where
  ascii := fun _ _ => trivial
  lower := fun _ _ _ _ => trivial

theorem closed_unbroken : Closed fun c => isLineBreak c = false where
  ascii := by
    intro c hc
    rw [isPrintableAscii_iff] at hc
    rw [Lower.isLineBreak_eq_false_iff, Lower.breaks]
    simp only [List.mem_cons, List.not_mem_nil, or_false]
    omega
  lower := fun _ h => unbroken_lower h

end Text

variable {P : Char → Prop}

/-! ## Slots of instructions -/

/-- The name of the slot is printable ASCII. -/
def Slot.IsAscii (slot : Slot) : Prop := slot.toList.all Text.isPrintableAscii = true

theorem Slot.IsAscii.over (hP : Text.Closed P) {slot : Slot} (h : slot.IsAscii) :
    ∀ c ∈ slot.toList, P c := fun c hc => hP.ascii c (List.all_eq_true.mp h c hc)

theorem Register.isAscii_slot (r : Register) : Slot.IsAscii r.slot := by
  obtain ⟨i⟩ := r
  revert i
  unfold Slot.IsAscii
  decide

theorem Slot.isAscii_stack (offset : Int) : Slot.IsAscii (Slot.stack offset) := by
  unfold Slot.stack
  split
  · rfl
  · unfold Slot.IsAscii
    rw [String.toList_append, List.all_append, Bool.and_eq_true]
    exact ⟨rfl, List.all_eq_true.mpr fun c hc => Text.isPrintableAscii_of_mem_toString hc⟩

theorem Operand.Form.isAscii_slot (f : Operand.Form) : Slot.IsAscii f.slot := by
  cases f with
  | register r | lowerHalf r => exact r.isAscii_slot
  | memory width base offset =>
    simp only [Operand.Form.slot]
    split
    · exact Slot.isAscii_stack offset
    · rfl
  | constant => rfl

namespace Action

theorem isAscii_of_mem_reads {a : Action} {k : Slot} (h : k ∈ a.reads) : k.IsAscii := by
  rcases mem_reads h with ⟨r, rfl⟩ | ⟨o, -, rfl⟩
  · exact r.isAscii_slot
  · exact o.form.isAscii_slot

theorem isAscii_of_mem_writes {a : Action} {k : Slot} (h : k ∈ a.writes) : k.IsAscii := by
  rcases mem_writes h with ⟨r, rfl⟩ | ⟨o, -, rfl⟩
  · exact r.isAscii_slot
  · exact o.form.isAscii_slot

end Action

/-! ## What a line holds -/

/-- The slot and the value have characters of `P` only. -/
structure StateExpr.Over (P : Char → Prop) (e : StateExpr) : Prop where
  slot : ∀ c ∈ e.slot.toList, P c
  value : ∀ c ∈ e.value.toList, P c

/-- The texts of the content have characters of `P` only, and its numbers can be written. -/
def Content.Over (P : Char → Prop) : Content → Prop
  | .instruction ins exprs => (∀ pc ∈ ins.pc, Decimal.Writable pc) ∧ ∀ e ∈ exprs, e.Over P
  | .source note => (∀ c ∈ note.file.toList, P c) ∧ (∀ c ∈ note.content.toList, P c) ∧
      Decimal.Writable note.number
  | .notice (.globalFunction id name) => (∀ c ∈ name.toList, P c) ∧ Decimal.Writable id
  | .notice (.stateBlock pc exprs) => Decimal.Writable pc ∧ ∀ e ∈ exprs, e.Over P
  | .unrecognized _ => True

section

variable (hP : Text.Closed P)

include hP

theorem Slot.over_canonical {name : String} (h : ∀ c ∈ name.toList, P c) :
    ∀ c ∈ (canonical name).toList, P c := by
  unfold canonical
  split
  · have hbase : base.IsAscii := rfl
    exact hbase.over hP
  · exact h

theorem Slot.over_ofKey {key : List Char} (h : ∀ c ∈ key, P c) :
    ∀ c ∈ (ofKey (String.ofList key)).toList, P c := by
  unfold ofKey
  rw [String.toList_ofList]
  refine over_canonical hP ?_
  rw [String.toList_ofList]
  refine hP.lower _ fun c hc => h c ?_
  unfold dropWritten at hc
  split at hc
  · exact List.mem_of_mem_take hc
  · exact hc

variable {raw : List Char} (hraw : ∀ c ∈ raw, P c)

include hraw

theorem StateExpr.over_of_partOf {e : StateExpr} (h : e.PartOf raw) : e.Over P := by
  obtain ⟨frame, key, value, rfl, -, hkey, hvalue⟩ := h
  constructor
  · simp only [ofPair]
    exact Slot.over_ofKey hP fun c hc => hraw c (hkey.subset hc)
  · simp only [ofPair]
    refine Slot.over_canonical hP ?_
    rw [String.toList_ofList]
    exact fun c hc => hraw c (hvalue.subset hc)

theorem Content.over_of_partOf {content : Content} (h : content.PartOf raw) : content.Over P := by
  have hexprs : ∀ {exprs : List StateExpr}, (∀ e ∈ exprs, e.PartOf raw) → ∀ e ∈ exprs, e.Over P :=
    fun h e he => StateExpr.over_of_partOf hP hraw (h e he)
  match content with
  | .instruction ins exprs => exact ⟨fun pc hpc => (h.1 pc hpc).writable, hexprs h.2⟩
  | .source note =>
    obtain ⟨hfile, hcontent, hnumber⟩ := h
    exact ⟨fun c hc => hraw c (hfile.subset hc), fun c hc => hraw c (hcontent.subset hc),
      hnumber.writable⟩
  | .notice (.globalFunction id name) => exact ⟨fun c hc => hraw c (h.1.subset hc), h.2.writable⟩
  | .notice (.stateBlock pc exprs) => exact ⟨h.1.writable, hexprs h.2⟩
  | .unrecognized fault => trivial

end

theorem Instruction.pc_assuming (name? : Option String) (ins : Instruction) :
    (ins.assuming name?).pc = ins.pc := by
  unfold Instruction.assuming
  split
  · rfl
  · rfl

theorem Notice.over_settled {config : Config} {lines : List LogLine}
    (h : ∀ l ∈ lines, l.content.Over P) : ∀ l ∈ settled config lines, l.content.Over P := by
  refine forall_settled config (F := StateExpr.Over P) And.right ?_ h
  intro ins exprs more name? hline hmore
  refine ⟨?_, List.forall_mem_append.mpr ⟨hline.2, hmore⟩⟩
  rw [Instruction.pc_assuming]
  exact hline.1

end VerifierTrace
