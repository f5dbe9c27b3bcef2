import Mathlib.Data.List.TakeWhile
import VerifierTrace.Proofs.Instruction.Operands

/-!
# VerifierTrace.Proofs.Instruction.Bodies

Printed bodies are read back: `read_body` puts one lemma for each form together. The opcode alone
decides which form is expected, except that the 64-bit move has two; what is printed as the one is
not read as the other (`cast?_compute`).
-/

namespace VerifierTrace

theorem skipBlanks_space {c : Char} {cs : List Char} (h : Text.isBlank c = false) :
    Text.skipBlanks (' ' :: c :: cs) = c :: cs := by
  have hspace : Text.isBlank ' ' = true := by decide
  rw [Text.skipBlanks_cons, if_pos hspace, Text.skipBlanks_cons, if_neg (by simp [h])]

theorem Extent.between_nil (part : List Char) : Extent.between part [] = Extent.ahead part [] := by
  have h := Extent.between_append part []
  rwa [List.append_nil] at h

namespace Action

open Printed

/-! ## Operators -/

theorem readSymbol?_alu (op : AluOp) (rest : List Char) :
    readSymbol? AluOp.symbol AluOp.all (op.symbol.toList ++ ' ' :: rest) =
      some (op, ' ' :: rest) := by
  cases op <;> rfl

theorem readSymbol?_comparison (op : Comparison) (rest : List Char) :
    readSymbol? Comparison.symbol Comparison.all (op.symbol.toList ++ ' ' :: rest) =
      some (op, ' ' :: rest) := by
  cases op <;> rfl

theorem readSymbol?_goto (word : GotoWord) (rest : List Char) :
    readSymbol? GotoWord.text GotoWord.all (word.text.toList ++ ' ' :: rest) =
      some (word, ' ' :: rest) := by
  cases word <;> rfl

theorem skipBlanks_alu (op : AluOp) (rest : List Char) :
    Text.skipBlanks (' ' :: (op.symbol.toList ++ rest)) = op.symbol.toList ++ rest := by
  cases op <;> rfl

theorem skipBlanks_comparison (op : Comparison) (rest : List Char) :
    Text.skipBlanks (' ' :: (op.symbol.toList ++ rest)) = op.symbol.toList ++ rest := by
  cases op <;> rfl

theorem behind_append (symbol : String) (o : Operand.Printed) (rest : List Char) :
    behind symbol o ++ rest = ' ' :: (symbol.toList ++ ' ' :: (o.text ++ rest)) := by
  simp [behind]

theorem readOperator_text {α : Type} {symbol : α → String} {all : List α} {a : α}
    {o : Operand.Printed} {rest : List Char}
    (h : readSymbol? symbol all ((symbol a).toList ++ ' ' :: (o.text ++ rest)) =
      some (a, ' ' :: (o.text ++ rest))) :
    readOperator symbol all ((symbol a).toList ++ ' ' :: (o.text ++ rest)) =
      .ok (a, o.text ++ rest) := by
  obtain ⟨c, cs, htext, hblank, -⟩ := Operand.text_eq_cons o
  rw [readOperator, h]
  rw [htext, List.cons_append]
  simp only [skipBlanks_space hblank]

/-! ## Arithmetic, loads and stores -/

theorem readCompute_text {dst src : Operand.Printed} (op : AluOp)
    (hdst : dst.allowed .place = true) (hsrc : src.allowed .source = true) :
    readCompute (Printed.compute dst op src).text =
      .ok ((Printed.compute dst op src).meaning, []) := by
  have hfirst : Operand.read .place (dst.text ++ behind op.symbol src) =
      .ok (dst.operand (behind op.symbol src), behind op.symbol src) :=
    Operand.read_operand hdst (stops_space _)
  have hbehind : Text.skipBlanks (behind op.symbol src) =
      op.symbol.toList ++ ' ' :: (src.text ++ []) := by
    have happend := behind_append op.symbol src []
    rw [List.append_nil] at happend
    rw [happend, skipBlanks_alu]
  have hop := readOperator_text (o := src) (readSymbol?_alu op (src.text ++ []))
  have hsecond := Operand.read_operand hsrc stops_nil
  simp only [readCompute, text_compute, hfirst, bind, Except.bind, hbehind, hop, hsecond,
    Text.skipBlanks_nil, Printed.meaning, pure, Except.pure]

/-- What follows the destination does not go on as a cast. -/
theorem isPrefixOf?_behind (op : AluOp) (src : Operand.Printed) :
    " = addr_space_cast(".toList.isPrefixOf? (behind op.symbol src) = none := by
  cases op with
  | assign =>
    obtain ⟨c, cs, htext, -, ha⟩ := Operand.text_eq_cons src
    have hcast : " = addr_space_cast(".toList =
        " = ".toList ++ 'a' :: "ddr_space_cast(".toList := by
      decide
    have hbehind : behind AluOp.assign.symbol src = " = ".toList ++ c :: cs := by
      rw [← htext]
      rfl
    rw [hcast, hbehind, isPrefixOf?_append_append, isPrefixOf?_cons_ne _ _ ha.symm]
  | _ => rfl

theorem cast?_compute {dst : Operand.Printed} (op : AluOp) (src : Operand.Printed)
    (hdst : dst.allowed .place = true) : cast? (Printed.compute dst op src).text = none := by
  cases dst with
  | register r =>
    have hread : Register.read? (r.text ++ behind op.symbol src) =
        some (r, behind op.symbol src) :=
      Operand.read?_register r (stops_space _).noDigitHead
    simp only [cast?, text_compute, Operand.Printed.text, hread, Option.bind_eq_bind,
      Option.bind_some, isPrefixOf?_behind, Option.bind_none]
  | half n =>
    have hread := Operand.read?_eq_none (Nat.digitChar n.val :: behind op.symbol src)
      (show 'w' ≠ 'r' by decide)
    simp only [cast?, text_compute, Operand.Printed.text, List.cons_append, List.nil_append, hread,
      Option.bind_eq_bind, Option.bind_none]
  | memory width base offset =>
    have hread : Register.read? ((Operand.Printed.memory width base offset).text ++
        behind op.symbol src) = none :=
      Operand.read?_eq_none _ (show '*' ≠ 'r' by decide)
    simp only [cast?, text_compute, hread, Option.bind_eq_bind, Option.bind_none]
  | hex digits => cases hdst
  | decimal negative digits => cases hdst

theorem cast?_text (dst src : Register) (toSpace fromSpace : Decimal.Digits) :
    cast? (Printed.cast dst src toSpace fromSpace).text =
      some ((Printed.cast dst src toSpace fromSpace).meaning, []) := by
  have hspaces : castSpaces toSpace fromSpace = ", ".toList ++ (toSpace.chars ++ (", ".toList ++
      (fromSpace.chars ++ (")".toList ++ [])))) := by
    simp only [castSpaces, List.append_assoc, List.append_nil]
  have hfrom : castFrom src toSpace fromSpace =
      " = addr_space_cast(".toList ++ (src.text ++ castSpaces toSpace fromSpace) :=
    List.append_assoc _ _ _
  have hcomma : ∀ rest, Decimal.NoDigitHead (", ".toList ++ rest) :=
    fun rest => Decimal.noDigitHead_cons (by decide)
  have hparen : Decimal.NoDigitHead (")".toList ++ []) := Decimal.noDigitHead_cons (by decide)
  have hdst : Register.read? (dst.text ++ castFrom src toSpace fromSpace) =
      some (dst, castFrom src toSpace fromSpace) :=
    Operand.read?_register dst (by rw [hfrom]; exact Decimal.noDigitHead_cons (by decide))
  have hsrc : Register.read? (src.text ++ castSpaces toSpace fromSpace) =
      some (src, castSpaces toSpace fromSpace) :=
    Operand.read?_register src (by rw [hspaces]; exact hcomma _)
  have hbehind : " = addr_space_cast(".toList.isPrefixOf? (castFrom src toSpace fromSpace) =
      some (src.text ++ castSpaces toSpace fromSpace) := by
    rw [hfrom, isPrefixOf?_append]
  have hto : ", ".toList.isPrefixOf? (castSpaces toSpace fromSpace) = some (toSpace.chars ++
      (", ".toList ++ (fromSpace.chars ++ (")".toList ++ [])))) := by
    rw [hspaces, isPrefixOf?_append]
  simp only [cast?, text_cast, hdst, hbehind, hsrc, hto, toSpace.run?_append (hcomma _),
    isPrefixOf?_append, fromSpace.run?_append hparen, Option.bind_eq_bind, Option.bind_some,
    Option.pure_def, Extent.between_append, Printed.meaning, Operand.Printed.operand, Operand.Printed.form,
    Operand.Printed.text]

theorem readAlu_text {opcode : Opcode} {body : Printed} (hfits : body.fits opcode = true)
    (hjump : opcode.isJump = false) : readAlu opcode body.text = .ok (body.meaning, []) := by
  cases body with
  | compute dst op src =>
    simp only [fits, Bool.and_eq_true] at hfits
    have hnone : (if opcode.opClass = .alu64 ∧ opcode.code = Opcode.mov then
        cast? (Printed.compute dst op src).text else none) = none := by
      split
      · exact cast?_compute op src hfits.1.2
      · rfl
    rw [readAlu, hnone]
    exact readCompute_text op hfits.1.2 hfits.2
  | cast dst src toSpace fromSpace =>
    have hmov : opcode.opClass = .alu64 ∧ opcode.code = Opcode.mov := by simpa [fits] using hfits
    rw [readAlu, if_pos hmov, cast?_text]
  | goto word target => simp [fits, hjump] at hfits
  | branch left op right target => simp [fits, hjump] at hfits
  | call target => simp [fits, hjump] at hfits
  | exit => simp [fits, hjump] at hfits

/-! ## Jumps -/

theorem position?_text (t : Target) : position? t.text = some (t.text, []) := by
  obtain ⟨negative, digits⟩ := t
  have hrun := digits.run?_append Decimal.noDigitHead_nil
  rw [List.append_nil] at hrun
  cases negative with
  | false =>
    show (Decimal.run? digits.chars).map _ = _
    rw [hrun]
    rfl
  | true =>
    show (Decimal.run? digits.chars).map _ = _
    rw [hrun]
    rfl

theorem readGoto_text {allowed : GotoWord → Bool} {word : GotoWord} (target : Target)
    (h : allowed word = true) :
    readGoto allowed (Printed.goto word target).text =
      .ok ((Printed.goto word target).meaning, []) := by
  have hgoto : goto? (word.text.toList ++ ' ' :: target.text) = some (word, target.text, []) := by
    have hspace : " ".toList.isPrefixOf? (' ' :: target.text) = some target.text :=
      isPrefixOf?_append [' '] target.text
    simp only [goto?, readSymbol?_goto, hspace, position?_text, Option.bind_eq_bind,
      Option.bind_some, Option.pure_def]
  simp only [readGoto, text_goto, hgoto, h, if_true, Extent.between_nil, Text.skipBlanks_nil,
    Printed.meaning]

theorem readBranch_text {left right : Operand.Printed} (op : Comparison) (target : Target)
    (hleft : left.allowed .compared = true) (hright : right.allowed .compared = true) :
    readBranch (Printed.branch left op right target).text =
      .ok ((Printed.branch left op right target).meaning, []) := by
  have hif : "if ".toList.isPrefixOf? (Printed.branch left op right target).text =
      some (left.text ++ (behind op.symbol right ++ gotoTarget target)) := by
    rw [text_branch, List.append_assoc, List.append_assoc, isPrefixOf?_append]
  have hfirst : Operand.read .compared
      (left.text ++ (behind op.symbol right ++ gotoTarget target)) = .ok (left.operand (behind op.symbol right ++ gotoTarget target),
        behind op.symbol right ++ gotoTarget target) :=
    Operand.read_operand hleft (stops_space _)
  have hbehind : Text.skipBlanks (behind op.symbol right ++ gotoTarget target) =
      op.symbol.toList ++ ' ' :: (right.text ++ gotoTarget target) := by
    rw [behind_append, skipBlanks_comparison]
  have hop := readOperator_text (o := right)
    (readSymbol?_comparison op (right.text ++ gotoTarget target))
  have hsecond : Operand.read .compared (right.text ++ gotoTarget target) =
      .ok (right.operand (gotoTarget target), gotoTarget target) :=
    Operand.read_operand hright (stops_space _)
  have hgoto : target? (Text.skipBlanks (gotoTarget target)) = some (target.text, []) := by
    have hskip : Text.skipBlanks (gotoTarget target) = "goto ".toList ++ target.text := rfl
    rw [target?, hskip, isPrefixOf?_append]
    exact position?_text target
  simp only [readBranch, hif, hfirst, bind, Except.bind, hbehind, hop, hsecond, hgoto,
    Text.skipBlanks_nil, Printed.meaning]

theorem readCall_text (target : Name) :
    readCall (Printed.call target).text = .ok ((Printed.call target).meaning, []) := by
  have hcall : "call ".toList.isPrefixOf? ("call ".toList ++ target.chars) = some target.chars :=
    isPrefixOf?_append _ _
  have htake : target.chars.takeWhile isNameChar = target.chars :=
    List.takeWhile_eq_self_iff.mpr target.valid
  have hdrop : target.chars.dropWhile isNameChar = [] :=
    List.dropWhile_eq_nil_iff.mpr target.valid
  have hne : target.chars.isEmpty = false := by
    rw [List.isEmpty_eq_false_iff]
    exact target.nonempty
  simp only [readCall, text_call, hcall, htake, hdrop, hne, Extent.between_nil,
    Text.skipBlanks_nil, meaning_call, Bool.false_eq_true, if_false]
  split
  · rfl
  · rfl

theorem readExit_text : readExit Printed.exit.text = .ok (Printed.exit.meaning, []) := by
  have hexit : "exit".toList.isPrefixOf? "exit".toList = some [] := isPrefixOf?_append _ []
  simp only [readExit, text_exit, hexit, Text.skipBlanks_nil]
  rfl

theorem jumpForm?_branch {code : Nat}
    (h : [1, 2, 3, 5, 6, 7, 10, 11, 12, 13].contains code = true) :
    jumpForm? code = some .branch := by
  unfold jumpForm?
  split
  · cases h
  · cases h
  · cases h
  · cases h
  · rw [if_pos h]

theorem readJump_text {opcode : Opcode} {body : Printed} (hfits : body.fits opcode = true)
    (hjump : opcode.isJump = true) : readJump opcode.code body.text = .ok (body.meaning, []) := by
  cases body with
  | compute dst op src => simp [fits, hjump] at hfits
  | cast dst src toSpace fromSpace =>
    have hclass : opcode.opClass = .alu64 := by
      simp only [fits, Bool.and_eq_true, decide_eq_true_eq] at hfits
      exact hfits.1
    rw [Opcode.isJump, hclass] at hjump
    cases hjump
  | goto word target =>
    simp only [fits, hjump, Bool.true_and, Bool.or_eq_true, Bool.and_eq_true, beq_iff_eq] at hfits
    rcases hfits with hcode | ⟨hcode, hword⟩
    · rw [hcode]
      exact readGoto_text target rfl
    · rw [hcode]
      exact readGoto_text target hword
  | branch left op right target =>
    simp only [fits, hjump, Bool.true_and, Bool.and_eq_true] at hfits
    obtain ⟨⟨hcode, hleft⟩, hright⟩ := hfits
    have hform : jumpForm? opcode.code = some .branch := jumpForm?_branch hcode
    rw [readJump, hform]
    exact readBranch_text op target hleft hright
  | call target =>
    simp only [fits, hjump, Bool.true_and, beq_iff_eq] at hfits
    rw [hfits]
    exact readCall_text target
  | exit =>
    simp only [fits, hjump, Bool.true_and, beq_iff_eq] at hfits
    rw [hfits]
    exact readExit_text

/-- A printed body is read back under every opcode that it fits. -/
theorem read_body {opcode : Opcode} {body : Printed} (hfits : body.fits opcode = true) :
    Action.read opcode body.text = .ok (body.meaning, []) := by
  unfold Action.read
  cases hjump : opcode.isJump with
  | true => exact readJump_text hfits hjump
  | false => exact readAlu_text hfits hjump

end Action
end VerifierTrace
