import Mathlib.Data.List.Nodup
import VerifierTrace.Instruction.Basic
import VerifierTrace.Proofs.Slot.Naming

/-!
# VerifierTrace.Proofs.Instruction.Slots

The slots that an instruction reads.

They are listed without repetitions (`nodup_reads`), so an instruction copies from a slot if it
reads that slot and no other (`soleRead?_eq_some_iff`). A copy never loads through a pointer: the pointer
and what lies behind it would be two slots (`assign_soleRead`). All slots that are read or written are
registers or stand for operands (`Action.mem_reads`, `Action.mem_writes`).
-/

namespace VerifierTrace

section FirstOnes

variable {α : Type} [DecidableEq α]

theorem mem_firstOnes (xs : List α) (a : α) : a ∈ firstOnes xs ↔ a ∈ xs := by
  induction xs with
  | nil => exact Iff.rfl
  | cons b xs ih =>
    unfold firstOnes
    rw [List.mem_cons, List.mem_filter, ih, List.mem_cons, decide_eq_true_iff]
    constructor
    · rintro (rfl | ⟨h, -⟩)
      · exact .inl rfl
      · exact .inr h
    · rintro (rfl | h)
      · exact .inl rfl
      · by_cases hab : a = b
        · exact .inl hab
        · exact .inr ⟨h, hab⟩

theorem nodup_firstOnes (xs : List α) : (firstOnes xs).Nodup := by
  induction xs with
  | nil => exact List.nodup_nil
  | cons b xs ih =>
    unfold firstOnes
    refine List.nodup_cons.mpr ⟨?_, ih.filter _⟩
    intro h
    simp at h

end FirstOnes

namespace Instruction

theorem nodup_reads (ins : Instruction) : ins.reads.Nodup := by
  unfold reads Action.reads
  cases ins.action with
  | compute op dst src => exact nodup_firstOnes _
  | cast dst src toSpace fromSpace => exact List.nodup_singleton _
  | exit => exact List.nodup_nil
  | goto word target extent => exact List.nodup_nil
  | branch left op right target => exact nodup_firstOnes _
  | callHelper target extent | callSubprogram target extent =>
    show (Register.scratch.map Register.slot).Nodup
    decide

theorem soleRead?_eq_some_iff (ins : Instruction) (slot : Slot) :
    ins.soleRead? = some slot ↔ ∀ k, k ∈ ins.reads ↔ k = slot := by
  have hn := nodup_reads ins
  unfold soleRead?
  match hr : ins.reads with
  | [] => simp
  | [a] =>
    simp only [List.mem_singleton, Option.some.injEq]
    constructor
    · rintro rfl k
      exact Iff.rfl
    · intro h
      exact (h a).mp rfl
  | a :: b :: more =>
    rw [hr] at hn
    have hab : a ≠ b := by
      rintro rfl
      simp at hn
    simp only [reduceCtorEq, false_iff]
    intro h
    exact hab (((h a).mp (by simp)).trans ((h b).mp (by simp)).symm)

theorem mem_reads_of_soleRead? {ins : Instruction} {slot : Slot} (h : ins.soleRead? = some slot) :
    slot ∈ ins.reads := ((soleRead?_eq_some_iff ins slot).mp h slot).mpr rfl

theorem eq_of_soleRead? {ins : Instruction} {slot k : Slot} (h : ins.soleRead? = some slot)
    (hk : k ∈ ins.reads) : k = slot := ((soleRead?_eq_some_iff ins slot).mp h k).mp hk

end Instruction

theorem Register.slot_ne_memory (r : Register) : r.slot ≠ Slot.memory := by
  obtain ⟨i⟩ := r
  revert i
  decide

theorem Register.slot_injective : Function.Injective Register.slot := by
  rintro ⟨i⟩ ⟨j⟩
  revert i j
  decide

theorem Operand.Form.slot_ne_register {f : Operand.Form} {a : Register × Int}
    (h : f.address? = some a) (r : Register) : f.slot ≠ r.slot := by
  cases f with
  | memory width base offset =>
    simp only [slot]
    split
    · intro heq
      have hl := Slot.stackLocation?_stack offset
      rw [heq, Slot.stackLocation?_register] at hl
      cases hl
    · exact (r.slot_ne_memory).symm
  | register _ | lowerHalf _ | constant => cases h

/-- An assignment that reads one slot only loads from no memory, and if it stores to memory, it
reads the register before the address. -/
theorem assign_soleRead {ins : Instruction} {dst src : Operand.Form} {slot : Slot}
    (hreads : ins.reads = Action.computeReads .assign dst src) (h : ins.soleRead? = some slot) :
    src.address? = none ∧ ∀ a, dst.address? = some a → slot = a.1.slot := by
  constructor
  · refine Option.eq_none_iff_forall_ne_some.mpr fun a hs => ?_
    have hbase : a.1.slot ∈ ins.reads := by
      rw [hreads]
      simp [Action.computeReads, mem_firstOnes, hs]
    have hbehind : src.slot ∈ ins.reads := by
      have hc : src.isConstant = false := by
        cases src with
        | constant => cases hs
        | register _ | lowerHalf _ | memory _ _ _ => rfl
      rw [hreads]
      simp [Action.computeReads, mem_firstOnes, hc]
    exact Operand.Form.slot_ne_register hs a.1
      ((Instruction.eq_of_soleRead? h hbehind).trans (Instruction.eq_of_soleRead? h hbase).symm)
  · intro a hd
    refine (Instruction.eq_of_soleRead? h ?_).symm
    rw [hreads]
    simp [Action.computeReads, mem_firstOnes, hd]

/-! ## Slots of operands -/

namespace Action

def operands : Action → List Operand
  | .compute _ dst src => [dst, src]
  | .cast dst src _ _ => [dst, src]
  | .branch left _ right _ => [left, right]
  | .exit | .goto .. | .callHelper .. | .callSubprogram .. => []

variable {a : Action} {k : Slot}

theorem mem_reads (h : k ∈ a.reads) :
    (∃ r : Register, k = r.slot) ∨ ∃ o ∈ a.operands, k = o.form.slot := by
  cases a with
  | compute op dst src =>
    simp only [reads, computeReads, mem_firstOnes, List.mem_append, List.mem_map] at h
    rcases h with ((h | ⟨base, -, rfl⟩) | ⟨base, -, rfl⟩) | h
    · split at h
      · cases h
      · exact .inr ⟨dst, by simp [operands], List.mem_singleton.mp h⟩
    · exact .inl ⟨base.1, rfl⟩
    · exact .inl ⟨base.1, rfl⟩
    · split at h
      · cases h
      · exact .inr ⟨src, by simp [operands], List.mem_singleton.mp h⟩
  | cast dst src toSpace fromSpace =>
    exact .inr ⟨src, by simp [operands], List.mem_singleton.mp h⟩
  | branch left op right target =>
    obtain ⟨o, ho, rfl⟩ := List.mem_map.mp ((mem_firstOnes _ _).mp h)
    exact .inr ⟨o, (List.mem_filter.mp ho).1, rfl⟩
  | exit | goto word target extent => cases h
  | callHelper target extent | callSubprogram target extent =>
    obtain ⟨r, -, rfl⟩ := List.mem_map.mp h
    exact .inl ⟨r, rfl⟩

theorem mem_writes (h : k ∈ a.writes) :
    (∃ r : Register, k = r.slot) ∨ ∃ o ∈ a.operands, k = o.form.slot := by
  cases a with
  | compute op dst src | cast dst src toSpace fromSpace =>
    exact .inr ⟨dst, by simp [operands], List.mem_singleton.mp h⟩
  | goto word target extent | branch left op right target => cases h
  | exit | callHelper target extent | callSubprogram target extent =>
    obtain ⟨r, -, rfl⟩ := List.mem_map.mp h
    exact .inl ⟨r, rfl⟩

end Action
end VerifierTrace
