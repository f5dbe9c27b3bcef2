import VerifierTrace.Proofs.Instruction.Slots
import VerifierTrace.Proofs.Instruction.Trailing

/-!
# VerifierTrace.Proofs.Instruction.Places

Constants are never where a value goes.

The reader takes a constant for the source of an assignment or for a side of a comparison only, and a
cast is from a register to a register (`Action.placed_of_read`). So all slots that an instruction
reads or writes are those of places (`Action.Placed.of_mem_reads`, `Action.Placed.of_mem_writes`).
-/

namespace VerifierTrace

namespace Operand

theorem Form.isConstant_of_register? {f : Form} {cs more : List Char}
    (h : Form.register? cs = some (f, more)) : f.isConstant = false := by
  unfold Form.register? at h
  split at h
  · split at h
    · cases h
      rfl
    · cases h
  · obtain ⟨⟨r, tail⟩, -, heq⟩ := Option.map_eq_some_iff.mp h
    cases heq
    rfl

theorem isConstant_of_read {choice : Choice} (hchoice : choice.constant = false)
    {cs more : List Char} {o : Operand} (h : Operand.read choice cs = .ok (o, more)) :
    o.form.isConstant = false := by
  unfold Operand.read Form.read at h
  cases hregister : Form.register? cs with
  | some found =>
    rw [hregister] at h
    cases h
    exact Form.isConstant_of_register? hregister
  | none =>
    cases hmemory : (if choice.memory then memory? cs else none) with
    | none => simp [hregister, hmemory, hchoice] at h
    | some found =>
      obtain ⟨m, rest⟩ := found
      cases hoffset : Decimal.readSigned m.negative m.digits with
      | error fault => simp [hregister, hmemory, hoffset] at h
      | ok z =>
        simp only [hregister, hmemory, hoffset] at h
        cases h
        rfl

end Operand

namespace Action

/-- A value is put into no constant, and a cast is from a register to a register. -/
def Placed : Action → Prop
  | .compute _ dst _ => dst.form.isConstant = false
  | .cast dst src _ _ => (∃ r, dst.form = .register r) ∧ ∃ r, src.form = .register r
  | .exit | .goto .. | .branch .. | .callHelper .. | .callSubprogram .. => True

theorem placed_of_isJump {a : Action} (h : a.isJump = true) : a.Placed := by
  cases a with
  | compute op dst src | cast dst src toSpace fromSpace => cases h
  | exit | goto word target extent | branch left op right target | callHelper target extent
  | callSubprogram target extent => trivial

theorem isJump_of_readJump {code : Nat} {cs rest : List Char} {a : Action}
    (h : readJump code cs = .ok (a, rest)) : a.isJump = true := by
  unfold readJump at h
  split at h
  · unfold readGoto at h
    split at h
    · split at h
      · cases h
        rfl
      · cases h
    · cases h
  · unfold readCall at h
    split at h
    · cases h
    · simp only at h
      split at h
      · cases h
      · cases h
        split
        · rfl
        · rfl
  · unfold readExit at h
    split at h
    · cases h
    · cases h
      rfl
  · obtain ⟨c₀, left, c₁, op, c₂, right, c₃, target, c₄, -, -, -, -, -, rfl, -⟩ := readBranch_ok h
    rfl
  · cases h

theorem placed_of_read {opcode : Opcode} {cs rest : List Char} {a : Action}
    (h : Action.read opcode cs = .ok (a, rest)) : a.Placed := by
  unfold Action.read at h
  split at h
  · exact placed_of_isJump (isJump_of_readJump h)
  · unfold readAlu at h
    split at h
    · next found hcast =>
      cases h
      split at hcast
      · obtain ⟨dst, c₁, c₂, src, c₃, c₄, toSpace, c₅, c₆, fromSpace, c₇, -, -, -, -, -, -, -, -,
          rfl⟩ := cast?_eq_some hcast
        exact ⟨⟨dst, rfl⟩, src, rfl⟩
      · cases hcast
    · obtain ⟨dst, c₁, op, c₂, src, c₃, hdst, -, -, rfl, -⟩ := readCompute_ok h
      exact Operand.isConstant_of_read rfl hdst

namespace Placed

variable {a : Action} {k : Slot}

theorem of_mem_writes (ha : a.Placed) (h : k ∈ a.writes) :
    ∃ f : Operand.Form, f.isConstant = false ∧ k = f.slot := by
  cases a with
  | compute op dst src => exact ⟨dst.form, ha, List.mem_singleton.mp h⟩
  | cast dst src toSpace fromSpace =>
    obtain ⟨⟨r, hr⟩, -⟩ := ha
    exact ⟨dst.form, by rw [hr]; rfl, List.mem_singleton.mp h⟩
  | goto word target extent | branch left op right target => cases h
  | exit | callHelper target extent | callSubprogram target extent =>
    obtain ⟨r, -, rfl⟩ := List.mem_map.mp h
    exact ⟨.register r, rfl, rfl⟩

theorem of_mem_reads (ha : a.Placed) (h : k ∈ a.reads) :
    ∃ f : Operand.Form, f.isConstant = false ∧ k = f.slot := by
  cases a with
  | compute op dst src =>
    simp only [reads, computeReads, mem_firstOnes, List.mem_append, List.mem_map] at h
    rcases h with ((h | ⟨base, -, rfl⟩) | ⟨base, -, rfl⟩) | h
    · split at h
      · cases h
      · exact ⟨dst.form, ha, List.mem_singleton.mp h⟩
    · exact ⟨.register base.1, rfl, rfl⟩
    · exact ⟨.register base.1, rfl, rfl⟩
    · split at h
      · cases h
      · next hsrc => exact ⟨src.form, by simpa using hsrc, List.mem_singleton.mp h⟩
  | cast dst src toSpace fromSpace =>
    obtain ⟨-, r, hr⟩ := ha
    exact ⟨src.form, by rw [hr]; rfl, List.mem_singleton.mp h⟩
  | branch left op right target =>
    obtain ⟨o, ho, rfl⟩ := List.mem_map.mp ((mem_firstOnes _ _).mp h)
    exact ⟨o.form, by simpa using (List.mem_filter.mp ho).2, rfl⟩
  | exit | goto word target extent => cases h
  | callHelper target extent | callSubprogram target extent =>
    obtain ⟨r, -, rfl⟩ := List.mem_map.mp h
    exact ⟨.register r, rfl, rfl⟩

end Placed
end Action
end VerifierTrace
