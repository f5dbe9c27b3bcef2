import VerifierTrace.Proofs.Instruction.Operands
import VerifierTrace.Proofs.Slot.Brief
import VerifierTrace.Proofs.Slot.Normal

/-!
# VerifierTrace.Proofs.Slot.Agreement

One name for each stack slot.

The name of a stack slot is written for the frame that sees it (`Slot.ofFrame`), for an operand
relative to the frame pointer, and for a key that the verifier prints. `ofFrame_agrees` says that a
name is read back as its frame and its offset, so that no two slots share one, and that operands and
keys give the same name as the frame gives its own slot. Offset zero is the special case: it is
printed as `fp0` and read with either sign, and its name is `fp-0`.
-/

namespace VerifierTrace

open Decimal (maxDigits)

namespace Slot

theorem location_of_brief {name : String} (h : Decimal.Brief maxDigits name.toList) :
    location name = .ok (stackLocation? name) := by
  have hread := yields_location h (Nat.le_max_right 0 maxDigits)
  cases hl : location name with
  | error fault => exact absurd (hread.of_error hl) (fault.not_within (by decide))
  | ok l => rw [stackLocation?_of_location hl]

/-- Two slots have two names, whatever frame sees them. -/
theorem ofFrame_eq_iff {owner owner' viewer : Nat} {offset offset' : Int} :
    ofFrame owner offset viewer = ofFrame owner' offset' viewer ↔
      owner = owner' ∧ offset = offset' := by
  constructor
  · intro h
    have hsite := congrArg (site viewer) h
    rw [site_ofFrame, site_ofFrame] at hsite
    exact Site.stack.inj hsite
  · rintro ⟨rfl, rfl⟩
    rfl

/-! ## Keys -/

theorem canonical_fp (offset : Int) : canonical ("fp" ++ toString offset) = stack offset := by
  by_cases h : offset = 0
  · subst h
    decide
  · have hstack : stack offset = "fp" ++ toString offset := if_neg h
    rw [← hstack, canonical_of_ne (stack_ne_zero offset)]

theorem normalText_fp (offset : Int) : NormalText ("fp" ++ toString offset).toList := by
  rw [String.toList_append]
  exact .append (by decide) (normalText_toString offset)

theorem not_written_fp (offset : Int) :
    ['_', 'w'].isSuffixOf ("fp" ++ toString offset).toList = false := by
  rw [← Bool.not_eq_true, List.isSuffixOf_iff_suffix]
  intro h
  have hmem : 'w' ∈ ("fp" ++ toString offset).toList := h.subset (by decide)
  rw [String.toList_append] at hmem
  rcases List.mem_append.mp hmem with hmem | hmem
  · exact absurd hmem (by decide)
  · exact absurd (Text.toNat_of_mem_toString hmem).2 (by decide)

theorem ofKey_fp (offset : Int) : ofKey ("fp" ++ toString offset) = stack offset := by
  rw [ofKey_eq_canonical (normalText_fp offset) (not_written_fp offset), canonical_fp]

theorem ofKey_fp_written (offset : Int) :
    ofKey ("fp" ++ toString offset ++ "_w") = stack offset := by
  rw [ofKey_append_written (normalText_fp offset), canonical_fp]

end Slot

/-! ## Operands -/

namespace Operand

/-- The sign may stand in front of the number: zero takes either one. -/
def Signed (negative : Bool) (offset : Int) : Prop :=
  offset = if negative then -(offset.natAbs : Int) else offset.natAbs

instance (negative : Bool) (offset : Int) : Decidable (Signed negative offset) :=
  inferInstanceAs (Decidable (_ = _))

/-- Memory at an offset from the frame pointer, as instructions spell it: `*(u64 *)(r10 -8)`. -/
def stackText (width : Width) (negative : Bool) (offset : Int) : List Char :=
  ("*(" ++ width.name ++ " *)(r10 ").toList ++
    Decimal.signChar negative :: Nat.toDigits 10 offset.natAbs ++ [')']

/-- An offset as it is printed under a sign. -/
def printedOffset (negative : Bool) (offset : Int) (h : Decimal.Writable offset) :
    Decimal.Offset where
  negative := negative
  digits :=
    { chars := Nat.toDigits 10 offset.natAbs
      nonempty := Nat.toDigits_ne_nil
      decimal := Decimal.isDigit_of_mem_toDigits
      bounded := (Nat.length_toDigits_le_iff (by decide) (by decide)).mpr h }

theorem value_printedOffset {negative : Bool} {offset : Int} (h : Decimal.Writable offset)
    (hsign : Signed negative offset) : (printedOffset negative offset h).value = offset := by
  show (if negative then -(Decimal.value (Nat.toDigits 10 offset.natAbs) : Int)
    else Decimal.value (Nat.toDigits 10 offset.natAbs)) = offset
  rw [Decimal.value_toDigits]
  exact hsign.symm

theorem stackText_eq (width : Width) (negative : Bool) {offset : Int}
    (h : Decimal.Writable offset) : stackText width negative offset =
      (Printed.memory width .framePointer (printedOffset negative offset h)).text := by
  have hbase : Register.framePointer.text = ['r', '1', '0'] := by decide
  simp [stackText, Printed.text, Decimal.Offset.text, printedOffset, hbase]

theorem read_stackText {choice : Choice} (hchoice : choice.memory = true) (width : Width)
    {negative : Bool} {offset : Int} (h : Decimal.Writable offset) (hsign : Signed negative offset)
    (rest : List Char) : ∃ operand : Operand,
      Operand.read choice (stackText width negative offset ++ rest) = .ok (operand, rest) ∧
        operand.form = .memory width .framePointer offset := by
  have hread := read_memory hchoice width .framePointer (printedOffset negative offset h) rest
  rw [← stackText_eq, value_printedOffset h hsign] at hread
  rw [Operand.read, hread]
  exact ⟨_, rfl, rfl⟩

end Operand

namespace Slot

/-- Reports, operands and keys name a stack slot alike. The name that a frame gives a slot is read
back as the slot, so it has no other. The operand that is spelled with the offset, under either sign
if it is zero, and the key that prints the offset, with or without the mark of a value just written,
stand for the name that the owner gives the slot, in its one spelling. -/
theorem ofFrame_agrees (owner viewer : Nat) (offset : Int) (howner : owner < 10 ^ maxDigits)
    (hoffset : Decimal.Writable offset) :
    location (ofFrame owner offset viewer) =
        .ok (some ⟨if owner = viewer then none else some owner, offset⟩) ∧
    (∀ (owner' : Nat) (offset' : Int),
      ofFrame owner offset viewer = ofFrame owner' offset' viewer →
        owner = owner' ∧ offset = offset') ∧
    ∀ (choice : Operand.Choice) (width : Width) (negative : Bool) (rest : List Char),
      choice.memory = true → Operand.Signed negative offset →
      ∃ operand : Operand,
        Operand.read choice (Operand.stackText width negative offset ++ rest) =
            .ok (operand, rest) ∧
        operand.slot = ofKey ("fp" ++ toString offset) ∧
        operand.slot = ofKey ("fp" ++ toString offset ++ "_w") ∧
        operand.slot = ofFrame owner offset owner ∧
        canonical operand.slot = operand.slot := by
  refine ⟨?_, ?_, ?_⟩
  · rw [location_of_brief (brief_ofFrame (by decide) howner hoffset viewer),
      stackLocation?_ofFrame]
  · intro owner' offset' h
    exact ofFrame_eq_iff.mp h
  · intro choice width negative rest hchoice hsign
    obtain ⟨operand, hread, hform⟩ := Operand.read_stackText hchoice width hoffset hsign rest
    have hslot : operand.slot = stack offset := by
      rw [Operand.slot, hform, Operand.Form.slot, if_pos rfl]
    refine ⟨operand, hread, ?_⟩
    rw [hslot, ofKey_fp, ofKey_fp_written, ofFrame_self, canonical_of_ne (stack_ne_zero offset)]
    exact ⟨rfl, rfl, rfl, rfl⟩

/-- The base of the stack of frame 1, as frame 0 names it and as `+0` and `fp0` do. -/
theorem ofFrame_agrees_base :
    (1 < 10 ^ maxDigits ∧ Decimal.Writable 0 ∧ Operand.Signed false 0) ∧
    location "fp[1]-0" = .ok (some ⟨some 1, 0⟩) ∧
    (∀ (owner' : Nat) (offset' : Int),
      "fp[1]-0" = ofFrame owner' offset' 0 → 1 = owner' ∧ 0 = offset') ∧
    ∃ operand : Operand,
      Operand.read .place "*(u64 *)(r10 +0) = r1".toList = .ok (operand, " = r1".toList) ∧
      operand.slot = ofKey "fp0" ∧ operand.slot = ofKey "fp0_w" ∧ operand.slot = "fp-0" ∧
      canonical operand.slot = operand.slot := by
  have howner : 1 < 10 ^ maxDigits := Nat.one_lt_pow (by decide) (by decide)
  have hagree := ofFrame_agrees 1 0 0 howner Decimal.writable_zero
  refine ⟨⟨howner, Decimal.writable_zero, by decide⟩, hagree.1, ?_, ?_⟩
  · intro owner' offset' h
    exact hagree.2.1 owner' offset' h
  · exact hagree.2.2 .place .u64 false " = r1".toList rfl (by decide)

end Slot
end VerifierTrace
