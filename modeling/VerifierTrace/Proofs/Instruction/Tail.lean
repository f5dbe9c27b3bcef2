import VerifierTrace.Proofs.Instruction.Brief

/-!
# VerifierTrace.Proofs.Instruction.Tail

What is left unread of the body of an instruction is the end of its text, and so is the text at
which a body does not fit. Every reader goes on where the one before it stopped, so this is said once
of a result (`Tails`) and put together by `Tails.bind`.
-/

namespace VerifierTrace

/-- The end of the text `cs` is left unread, or the body does not fit at an end of it. -/
def Tails {α : Type} (cs : List Char) : Except Refusal (α × List Char) → Prop
  | .ok (_, rest) => rest <:+ cs
  | .error (.body fault) => fault.text <:+ cs
  | .error (.numeral _) => True

namespace Tails

variable {α β : Type} {cs part : List Char} {x : Except Refusal (α × List Char)}

theorem ok {a : α} {rest : List Char} (h : rest <:+ cs) :
    Tails cs (.ok (a, rest) : Except Refusal (α × List Char)) := h

theorem body {fault : BodyFault} (h : fault.text <:+ cs) :
    Tails cs (.error (.body fault) : Except Refusal (α × List Char)) := h

theorem mono (h : Tails part x) (hpart : part <:+ cs) : Tails cs x := by
  match x with
  | .ok (a, rest) => exact List.IsSuffix.trans h hpart
  | .error (.body fault) => exact List.IsSuffix.trans h hpart
  | .error (.numeral fault) => trivial

theorem bind (h : Tails cs x) {f : α × List Char → Except Refusal (β × List Char)}
    (hf : ∀ a rest, rest <:+ cs → Tails cs (f (a, rest))) : Tails cs (x >>= f) := by
  match x with
  | .ok (a, rest) => exact hf a rest h
  | .error (.body fault) => exact h
  | .error (.numeral fault) => trivial

end Tails

theorem Operand.Form.suffix_of_read {choice : Choice} {cs rest : List Char} {f : Operand.Form}
    (h : Form.read choice cs = .ok (some (f, rest))) : rest <:+ cs := by
  obtain ⟨o, htext, -⟩ := printed_of_read h
  exact ⟨o.text, htext⟩

theorem Operand.tails_read (choice : Choice) (cs : List Char) : Tails cs (Operand.read choice cs) := by
  unfold Operand.read
  cases hread : Form.read choice cs with
  | error fault => trivial
  | ok found =>
    match found with
    | none => exact .body (List.suffix_refl cs)
    | some (form, rest) => exact .ok (Form.suffix_of_read hread)

theorem tails_readOperator {α : Type} (symbol : α → String) (all : List α) (cs : List Char) :
    Tails cs (readOperator symbol all cs) := by
  unfold readOperator
  split
  · next a rest hsymbol =>
    exact .ok ((Text.skipBlanks_suffix rest).trans (suffix_of_readSymbol? hsymbol))
  · exact .body (List.suffix_refl cs)

namespace Action

theorem tails_readCompute (cs : List Char) : Tails cs (readCompute cs) := by
  refine (Operand.tails_read .place cs).bind fun dst c₁ h₁ => ?_
  have hoperator := tails_readOperator AluOp.symbol AluOp.all (Text.skipBlanks c₁)
  refine (hoperator.mono ((Text.skipBlanks_suffix c₁).trans h₁)).bind fun op c₂ h₂ => ?_
  refine ((Operand.tails_read .source c₂).mono h₂).bind fun src c₃ h₃ => ?_
  exact .ok ((Text.skipBlanks_suffix c₃).trans h₃)

theorem tails_readAlu (opcode : Opcode) (cs : List Char) : Tails cs (readAlu opcode cs) := by
  unfold readAlu
  split
  · next found hfound =>
    split at hfound
    · exact .ok (suffix_of_cast? hfound)
    · cases hfound
  · exact tails_readCompute cs

theorem tails_readGoto (allowed : GotoWord → Bool) (cs : List Char) :
    Tails cs (readGoto allowed cs) := by
  unfold readGoto
  split
  · next word target rest hgoto =>
    split
    · exact .ok ((Text.skipBlanks_suffix rest).trans (suffix_of_goto? hgoto))
    · exact .body (List.suffix_refl cs)
  · exact .body (List.suffix_refl cs)

/-- The fault of a missing target is at the whole body, whatever was read before it. -/
theorem tails_readBranch (cs : List Char) : Tails cs (readBranch cs) := by
  unfold readBranch
  split
  · exact .body (List.suffix_refl cs)
  · next c₀ hif =>
    refine ((Operand.tails_read .compared c₀).mono (suffix_of_isPrefixOf? hif)).bind
      fun left c₁ h₁ => ?_
    have hoperator := tails_readOperator Comparison.symbol Comparison.all (Text.skipBlanks c₁)
    refine (hoperator.mono ((Text.skipBlanks_suffix c₁).trans h₁)).bind fun op c₂ h₂ => ?_
    refine ((Operand.tails_read .compared c₂).mono h₂).bind fun right c₃ h₃ => ?_
    simp only
    split
    · exact .body (List.suffix_refl cs)
    · next target c₄ htarget =>
      exact .ok <| (Text.skipBlanks_suffix c₄).trans <| (suffix_of_target? htarget).trans <|
        (Text.skipBlanks_suffix c₃).trans h₃

theorem tails_readCall (cs : List Char) : Tails cs (readCall cs) := by
  unfold readCall
  split
  · exact .body (List.suffix_refl cs)
  · next rest hcall =>
    have hafter : rest.dropWhile isNameChar <:+ cs :=
      (List.dropWhile_suffix _).trans (suffix_of_isPrefixOf? hcall)
    simp only
    split
    · exact .body (List.suffix_refl cs)
    · exact .ok ((Text.skipBlanks_suffix _).trans hafter)

theorem tails_readExit (cs : List Char) : Tails cs (readExit cs) := by
  unfold readExit
  split
  · exact .body (List.suffix_refl cs)
  · next rest hexit => exact .ok ((Text.skipBlanks_suffix rest).trans (suffix_of_isPrefixOf? hexit))

/-- What is left of a body, and where it does not fit, is an end of its text. -/
theorem tails_read (opcode : Opcode) (cs : List Char) : Tails cs (Action.read opcode cs) := by
  unfold Action.read
  split
  · unfold readJump
    split
    · exact tails_readGoto _ cs
    · exact tails_readCall cs
    · exact tails_readExit cs
    · exact tails_readBranch cs
    · exact .body (List.suffix_refl cs)
  · exact tails_readAlu opcode cs

end Action
end VerifierTrace
