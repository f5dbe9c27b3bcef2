import VerifierTrace.Proofs.Instruction.Bodies
import VerifierTrace.Proofs.LogLine.Announced

/-!
# VerifierTrace.Proofs.LogLine.Printed

A printed line is read back as the instruction that it shows, whatever its form, its operands and
the length of its names (`read_line`). It is no source note, since it begins with a digit and not
with a semicolon, and its two hexadecimal digits give the opcode that its body was chosen by.
-/

namespace VerifierTrace

/-! ## Places -/

theorem Extent.text_ahead {line before part after : List Char}
    (h : line = before ++ (part ++ after)) : (Extent.ahead part after).text line = part := by
  have hlen : line.length = before.length + (part.length + after.length) := by
    rw [h, List.length_append, List.length_append]
  have hstart : Extent.clamp line.length
      ((line.length : Int) + -((part.length + after.length : Nat) : Int)) = before.length := by
    simp only [Extent.clamp]
    split <;> omega
  have hstop : Extent.clamp line.length
      ((line.length : Int) + -((part.length + after.length : Nat) : Int) + part.length) =
        before.length + part.length := by
    simp only [Extent.clamp]
    split <;> omega
  simp only [Extent.text, Extent.resolve, Extent.ahead, Extent.slice, hstart, hstop]
  rw [h, ← List.append_assoc, ← List.length_append, List.take_left, List.drop_left]

namespace Action.Printed

/-- The places that the action keeps are those of the printed parts. -/
theorem text_extents (body : Printed) (before : List Char) :
    (body.meaning.extents.map fun e => e.text (before ++ body.text)) = body.parts := by
  cases body with
  | compute dst op src =>
    have hline : before ++ (compute dst op src).text =
        (before ++ (dst.text ++ (' ' :: op.symbol.toList ++ [' ']))) ++ (src.text ++ []) := by
      simp [behind]
    have hdst : (Extent.ahead dst.text (behind op.symbol src)).text
        (before ++ (compute dst op src).text) = dst.text := Extent.text_ahead rfl
    simp only [meaning, extents, Operand.Printed.operand, List.map_cons, List.map_nil, hdst,
      Extent.text_ahead hline, parts]
  | cast dst src toSpace fromSpace =>
    have hgroup : ∀ cs, before ++ (dst.text ++ (cs ++ src.text ++ castSpaces toSpace fromSpace)) =
        (before ++ (dst.text ++ cs)) ++ (src.text ++ castSpaces toSpace fromSpace) := by
      intro cs
      simp only [List.append_assoc]
    have hline : before ++ (cast dst src toSpace fromSpace).text =
        (before ++ (dst.text ++ " = addr_space_cast(".toList)) ++
          (src.text ++ castSpaces toSpace fromSpace) := hgroup _
    have hdst : (Extent.ahead dst.text (castFrom src toSpace fromSpace)).text
        (before ++ (cast dst src toSpace fromSpace).text) = dst.text := Extent.text_ahead rfl
    simp only [meaning, extents, Operand.Printed.operand, Operand.Printed.text, List.map_cons,
      List.map_nil, hdst, Extent.text_ahead hline, parts]
  | goto word target =>
    have hline : before ++ (goto word target).text = before ++ ((goto word target).text ++ []) := by
      rw [List.append_nil]
    simp only [meaning, extents, List.map_cons, List.map_nil, parts]
    exact congrArg (fun cs => [cs]) (Extent.text_ahead hline)
  | branch left op right target =>
    have hleft : before ++ (branch left op right target).text =
        (before ++ "if ".toList) ++
          (left.text ++ (behind op.symbol right ++ gotoTarget target)) := by
      simp only [text_branch, List.append_assoc]
    have hright : before ++ (branch left op right target).text =
        (before ++ ("if ".toList ++ (left.text ++ (' ' :: op.symbol.toList ++ [' '])))) ++
          (right.text ++ gotoTarget target) := by
      simp [behind]
    simp only [meaning, extents, Operand.Printed.operand, List.map_cons, List.map_nil,
      Extent.text_ahead hleft, Extent.text_ahead hright, parts]
  | call target =>
    have hline : before ++ (call target).text = before ++ ((call target).text ++ []) := by
      rw [List.append_nil]
    have hextents : (call target).meaning.extents = [.ahead (call target).text []] := by
      rw [meaning]
      split
      · rfl
      · rfl
    rw [hextents]
    exact congrArg (fun cs => [cs]) (Extent.text_ahead hline)
  | exit => rfl

end Action.Printed

/-! ## Slots -/

namespace Operand.Printed

theorem base_eq (o : Printed) : (o.form.address?.toList.map fun a => a.1.slot) = o.base := by
  cases o <;> rfl

theorem named_eq (o : Printed) :
    (if o.form.isConstant then [] else [o.form.slot]) = o.named := by
  cases o with
  | register r => rfl
  | half n => rfl
  | memory width base offset =>
    simp only [form, Form.isConstant, Form.slot, named, Bool.false_eq_true, if_false]
    split
    · rfl
    · rfl
  | hex digits => rfl
  | decimal negative digits => rfl

theorem named_place {o : Printed} (h : o.allowed .place = true) : o.named = [o.form.slot] := by
  have hconstant : o.form.isConstant = false := by
    cases o with
    | register _ | half _ | memory _ _ _ => rfl
    | hex digits => cases h
    | decimal negative digits => cases h
  rw [← named_eq, hconstant]
  rfl

end Operand.Printed

namespace Action.Printed

theorem reads_meaning {opcode : Opcode} {body : Printed} (hfits : body.fits opcode = true) :
    body.meaning.reads = body.reads := by
  cases body with
  | compute dst op src =>
    simp only [fits, Bool.and_eq_true] at hfits
    simp only [meaning, Action.reads, computeReads, Operand.Printed.operand, reads,
      Operand.Printed.base_eq, Operand.Printed.named_eq, Operand.Printed.named_place hfits.1.2]
  | cast dst src toSpace fromSpace => rfl
  | goto word target => rfl
  | branch left op right target =>
    simp only [meaning, Action.reads, Operand.Printed.operand, reads, List.filter_cons,
      List.filter_nil, ← Operand.Printed.named_eq]
    cases left.form.isConstant with
    | true => cases right.form.isConstant <;> rfl
    | false => cases right.form.isConstant <;> rfl
  | call target =>
    have hscratch : Register.scratch.map Register.slot = ["r1", "r2", "r3", "r4", "r5"] := by decide
    rw [meaning, reads, ← hscratch]
    split
    · rfl
    · rfl
  | exit => rfl

theorem writes_meaning {opcode : Opcode} {body : Printed} (hfits : body.fits opcode = true) :
    body.meaning.writes = body.writes := by
  cases body with
  | compute dst op src =>
    simp only [fits, Bool.and_eq_true] at hfits
    rw [writes, Operand.Printed.named_place hfits.1.2]
    rfl
  | cast dst src toSpace fromSpace => rfl
  | goto word target => rfl
  | branch left op right target => rfl
  | call target =>
    rw [meaning, writes]
    split
    · show (Register.result :: Register.preserved).map Register.slot = _
      decide
    · show (Register.result :: Register.scratch).map Register.slot = _
      decide
  | exit => decide

end Action.Printed

namespace Instruction.Printed

/-! ## Lines -/

theorem opcode_isHexDigit (opClass : OpClass) (code : Fin 16) (source : OpSource) :
    (Operand.isHexDigit (Nat.digitChar code) &&
      Operand.isHexDigit (Nat.digitChar (lowHalf opClass source))) = true := by
  cases opClass <;> cases source <;> revert code <;> decide

theorem ofHex?_opcode (opClass : OpClass) (code : Fin 16) (source : OpSource) :
    Opcode.ofHex? [Nat.digitChar code, Nat.digitChar (lowHalf opClass source)] =
      some ⟨opClass, code, source⟩ := by
  cases opClass <;> cases source <;> revert code <;> decide

theorem opcode?_text (i : Printed) (rest : List Char) :
    opcode? ('(' :: Nat.digitChar i.code :: Nat.digitChar (lowHalf i.opClass i.source) :: ')' ::
      rest) = some (i.opcode, rest) := by
  simp only [opcode?, opcode_isHexDigit, if_true, ofHex?_opcode, Option.map_some, opcode]

theorem text_eq (i : Printed) :
    i.text = i.pc.chars ++ ':' :: ' ' :: '(' :: Nat.digitChar i.code ::
      Nat.digitChar (lowHalf i.opClass i.source) :: ')' :: ' ' :: i.body.text :=
  (List.append_assoc _ _ _).trans (List.append_assoc _ _ _)

theorem skipBlanks_body (body : Action.Printed) :
    Text.skipBlanks (' ' :: body.text) = body.text := by
  have hcons : ∃ c cs, body.text = c :: cs ∧ Text.isBlank c = false := by
    cases body with
    | compute dst op src =>
      obtain ⟨c, cs, htext, hblank, -⟩ := Operand.text_eq_cons dst
      exact ⟨c, cs ++ Action.Printed.behind op.symbol src,
        by rw [Action.Printed.text_compute, htext]; rfl, hblank⟩
    | cast dst src toSpace fromSpace =>
      obtain ⟨cs, htext⟩ := Operand.register_eq_cons dst
      exact ⟨'r', cs ++ Action.Printed.castFrom src toSpace fromSpace,
        by rw [Action.Printed.text_cast, htext]; rfl, by decide⟩
    | goto word target =>
      cases word with
      | goto | gotol | gotoOrNop => exact ⟨'g', _, rfl, by decide⟩
      | mayGoto => exact ⟨'m', _, rfl, by decide⟩
    | branch left op right target => exact ⟨'i', _, rfl, by decide⟩
    | call target => exact ⟨'c', _, rfl, by decide⟩
    | exit => exact ⟨'e', _, rfl, by decide⟩
  obtain ⟨c, cs, htext, hblank⟩ := hcons
  rw [htext, skipBlanks_space hblank]

theorem head?_text (i : Printed) : head? i.text = some (i.pc.chars, i.opcode, i.body.text) := by
  obtain ⟨c, cs, hpc, hdigit⟩ := i.pc.eq_cons
  have hskip : Text.skipBlanks i.text = i.text := by
    rw [text_eq, hpc, List.cons_append, Text.skipBlanks_cons,
      if_neg (by simp [isBlank_of_isDigit hdigit])]
  have hcolon : ∀ rest, StateExpr.pcDigits? (i.pc.chars ++ ':' :: rest) =
      some (i.pc.chars, rest) := by
    intro rest
    rw [StateExpr.pcDigits?, i.pc.run?_append (Decimal.noDigitHead_cons (by decide))]
    rfl
  have hparen : ∀ rest, Text.skipBlanks (' ' :: '(' :: rest) = '(' :: rest :=
    fun rest => skipBlanks_space (by decide)
  rw [head?, hskip, text_eq, hcolon]
  simp only [Option.bind_eq_bind, Option.bind_some, hparen, opcode?_text, skipBlanks_body,
    Option.pure_def]

theorem split?_text (i : Printed) : SourceNote.split? (Text.trim i.text) = none := by
  obtain ⟨c, cs, hpc, hdigit⟩ := i.pc.eq_cons
  have hskip : Text.skipBlanks i.text = c :: (cs ++ ':' :: ' ' :: '(' :: Nat.digitChar i.code ::
      Nat.digitChar (lowHalf i.opClass i.source) :: ')' :: ' ' :: i.body.text) := by
    rw [text_eq, hpc, List.cons_append, Text.skipBlanks_cons, if_neg (by simp [isBlank_of_isDigit hdigit])]
  exact SourceNote.split?_trim_eq_none hskip (ne_of_isDigit hdigit (by decide))

/-- A printed line is read as the instruction that it shows, without further facts. -/
theorem read_text (i : Printed) (idx : Int) :
    LogLine.read i.line idx = .ok ⟨idx, i.line, .instruction i.meaning []⟩ := by
  have hnote : SourceNote.read i.text = .ok none := by
    rw [SourceNote.read, split?_text]
  have hbody : Action.read i.opcode i.body.text = .ok (i.body.meaning, []) :=
    Action.read_body i.fits
  have hfinish : finish i.pc.chars i.opcode i.body.meaning [] = .ok (i.meaning, []) := by
    have hblock : StateExpr.readBlock true [] = .ok ([], []) := rfl
    rw [finish, hblock]
    simp only [i.pc.read_eq]
    rfl
  have hcontent : Content.read i.line.toList = .ok (.instruction i.meaning []) := by
    rw [line, String.toList_ofList, Content.read, hnote]
    simp only [Content.readInstruction, head?_text, hbody, hfinish]
  rw [LogLine.read, hcontent]

/-- A printed line is read as the instruction that it shows, without further facts. The instruction
reads and writes what the text names, and keeps the places of its parts. -/
theorem read_line (i : Printed) (idx : Int) :
    LogLine.read i.line idx = .ok ⟨idx, i.line, .instruction i.meaning []⟩ ∧
      i.meaning.reads = i.body.reads ∧ i.meaning.writes = i.body.writes ∧
      (i.meaning.action.extents.map fun e => e.text i.line.toList) = i.body.parts := by
  refine ⟨i.read_text idx, Action.Printed.reads_meaning i.fits,
    Action.Printed.writes_meaning i.fits, ?_⟩
  rw [line, String.toList_ofList]
  exact i.body.text_extents _

example : ∃ i : Printed, i.line = "12: (7b) *(u64 *)(r10 -8) = r2" := by
  let twelve : Decimal.Numeral := ⟨⟨['1', '2'], by decide, by simp⟩, by decide⟩
  let eight : Decimal.Numeral := ⟨⟨['8'], by decide, by simp⟩, by decide⟩
  let store : Action.Printed :=
    .compute (.memory .u64 Register.framePointer ⟨true, eight⟩) .assign (.register ⟨2⟩)
  exact ⟨⟨twelve, .stx, 7, .register, store, by decide⟩, by decide⟩

end Instruction.Printed
end VerifierTrace
