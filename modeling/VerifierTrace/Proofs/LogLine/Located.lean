import VerifierTrace.Proofs.Instruction.Tail
import VerifierTrace.Proofs.LogLine.Block
import VerifierTrace.Proofs.LogLine.Brief

/-!
# VerifierTrace.Proofs.LogLine.Located

Kept places are where the text stands.

Every reader goes on at an end of the line, so the part between two of these ends lies in the line,
and stays the same part whatever is put in front of it (`Extent.marks_between`). The part of an
operand is the operand as it is printed, and read alone it is the same operand
(`Operand.located_of_read`); the part of a jump or of a call is its keyword, one space and its
target.

* `Extent.Marks line part e`: the place `e` is that of a part of the line, and the part is `part`.
* `Action.Located line a`: every place that the action keeps is that of its text.
* `LogLine.action_located`: so is it for all instructions that are read.
-/

namespace VerifierTrace

/-! ## Places -/

namespace Extent

/-- The place lies in the line, is not empty, and holds `part`, also with more text in front. -/
structure Marks (line part : List Char) (e : Extent) : Prop where
  start : 0 ≤ (e.resolve line).1
  nonempty : (e.resolve line).1 < (e.resolve line).2
  stop : (e.resolve line).2 ≤ line.length
  text : ∀ front, e.text (front ++ line) = part

variable {line part after : List Char}

theorem marks_between (hpart : part ≠ []) (hline : part ++ after <:+ line) :
    (between (part ++ after) after).Marks line part := by
  obtain ⟨before, rfl⟩ := hline
  rw [between_append]
  have hpos : 0 < part.length := List.length_pos_iff.mpr hpart
  have hlen : (before ++ (part ++ after)).length =
      before.length + (part.length + after.length) := by
    rw [List.length_append, List.length_append]
  constructor
  · simp only [resolve, ahead, hlen]
    omega
  · simp only [resolve, ahead, hlen]
    omega
  · simp only [resolve, ahead, hlen]
    omega
  · intro front
    exact text_ahead (List.append_assoc front before (part ++ after)).symm

theorem resolve_between_le {c₀ c₁ c₂ c₃ : List Char} (h : c₂ <:+ c₁) (line : List Char) :
    ((between c₀ c₁).resolve line).2 ≤ ((between c₂ c₃).resolve line).1 := by
  have hlen := h.length_le
  simp only [between, resolve]
  omega

end Extent

/-! ## Operands -/

namespace Operand

/-- The place of the operand is that of a text which, read alone and to its end, is the operand. -/
def Located (line : List Char) (o : Operand) : Prop :=
  ∃ part extent, o.extent.Marks line part ∧
    Operand.read .source part = .ok (⟨o.form, extent⟩, [])

/-- Both operands are located, the first before the second. -/
structure Paired (line : List Char) (left right : Operand) : Prop where
  first : left.Located line
  second : right.Located line
  ordered : (left.extent.resolve line).2 ≤ (right.extent.resolve line).1

variable {choice : Choice} {o left right : Operand} {line cs more : List Char}

theorem located_of_read (h : Operand.read choice cs = .ok (o, more)) (hcs : cs <:+ line) :
    o.Located line ∧ o.extent = .between cs more := by
  unfold Operand.read at h
  split at h
  · cases h
  · cases h
  · next form rest hform =>
    cases h
    obtain ⟨p, rfl, rfl⟩ := printed_of_read hform
    exact ⟨⟨p.text, _, Extent.marks_between p.text_ne_nil hcs, p.read_alone⟩, rfl⟩

theorem suffix_of_read (h : Operand.read choice cs = .ok (o, more)) : more <:+ cs := by
  have htail := tails_read choice cs
  rw [h] at htail
  exact htail

theorem paired_of_read {choice' : Choice} {c₁ c₂ : List Char}
    (hleft : Operand.read choice cs = .ok (left, c₁)) (hbetween : c₂ <:+ c₁)
    (hright : Operand.read choice' c₂ = .ok (right, more)) (hcs : cs <:+ line) :
    Paired line left right := by
  obtain ⟨hleft', hextent⟩ := located_of_read hleft hcs
  obtain ⟨hright', hextent'⟩ :=
    located_of_read hright (hbetween.trans ((suffix_of_read hleft).trans hcs))
  refine ⟨hleft', hright', ?_⟩
  rw [hextent, hextent']
  exact Extent.resolve_between_le hbetween line

end Operand

theorem suffix_of_readOperator {α : Type} {symbol : α → String} {all : List α} {a : α}
    {cs more : List Char} (h : readOperator symbol all cs = .ok (a, more)) : more <:+ cs := by
  have htail := tails_readOperator symbol all cs
  rw [h] at htail
  exact htail

/-! ## Bodies -/

namespace Action

/-- The places that the action keeps are those of its operands, in order, or of its keyword, one
space and its target. -/
def Located (line : List Char) : Action → Prop
  | .compute _ left right | .cast left right _ _ | .branch left _ right _ =>
    Operand.Paired line left right
  | .goto word target extent => extent.Marks line (word.text.toList ++ ' ' :: target.toList)
  | .callHelper target extent | .callSubprogram target extent =>
    extent.Marks line ("call ".toList ++ target.toList)
  | .exit => True

variable {action : Action} {opcode : Opcode} {line cs rest : List Char}

theorem located_of_readCompute (h : readCompute cs = .ok (action, rest)) (hcs : cs <:+ line) :
    action.Located line := by
  obtain ⟨dst, c₁, op, c₂, src, c₃, hdst, hop, hsrc, rfl, -⟩ := readCompute_ok h
  have hbetween := (suffix_of_readOperator hop).trans (Text.skipBlanks_suffix c₁)
  exact Operand.paired_of_read hdst hbetween hsrc hcs

theorem located_of_cast? (h : cast? cs = some (action, rest)) (hcs : cs <:+ line) :
    action.Located line := by
  obtain ⟨dst, c₁, c₂, src, c₃, -, -, -, -, -, -, hdst, hassign, hsrc, -, -, -, -, -, rfl⟩ :=
    cast?_eq_some h
  exact Operand.paired_of_read (Operand.read_of_register? .place hdst)
    (suffix_of_isPrefixOf? hassign) (Operand.read_of_register? .place hsrc) hcs

theorem located_of_readBranch (h : readBranch cs = .ok (action, rest)) (hcs : cs <:+ line) :
    action.Located line := by
  obtain ⟨c₀, left, c₁, op, c₂, right, c₃, target, c₄, hif, hleft, hop, hright, -, rfl, -⟩ :=
    readBranch_ok h
  have hbetween := (suffix_of_readOperator hop).trans (Text.skipBlanks_suffix c₁)
  exact Operand.paired_of_read hleft hbetween hright ((suffix_of_isPrefixOf? hif).trans hcs)

theorem located_of_readGoto {allowed : GotoWord → Bool}
    (h : readGoto allowed cs = .ok (action, rest)) (hcs : cs <:+ line) : action.Located line := by
  unfold readGoto at h
  split at h
  · next word target more hgoto =>
    split at h
    · cases h
      rw [← append_of_goto? hgoto] at hcs ⊢
      show Extent.Marks line (word.text.toList ++ ' ' :: (String.ofList target).toList) _
      rw [String.toList_ofList]
      exact Extent.marks_between (by simp) hcs
    · cases h
  · cases h

theorem located_of_readCall (h : readCall cs = .ok (action, rest)) (hcs : cs <:+ line) :
    action.Located line := by
  unfold readCall at h
  split at h
  · cases h
  · next tail hcall =>
    simp only at h
    split at h
    · cases h
    · have hparts : ("call ".toList ++ tail.takeWhile isNameChar) ++ tail.dropWhile isNameChar =
          cs := by
        rw [List.append_assoc, List.takeWhile_append_dropWhile]
        exact List.isPrefixOf?_eq_some_iff_append_eq.mp hcall
      have hmarks : (Extent.between cs (tail.dropWhile isNameChar)).Marks line
          ("call ".toList ++ (String.ofList (tail.takeWhile isNameChar)).toList) := by
        rw [String.toList_ofList (l := tail.takeWhile isNameChar)]
        rw [← hparts] at hcs ⊢
        exact Extent.marks_between (by simp) hcs
      cases h
      split
      · exact hmarks
      · exact hmarks

theorem located_of_read (h : Action.read opcode cs = .ok (action, rest)) (hcs : cs <:+ line) :
    action.Located line := by
  unfold Action.read at h
  split at h
  · unfold readJump at h
    split at h
    · exact located_of_readGoto h hcs
    · exact located_of_readCall h hcs
    · unfold readExit at h
      split at h
      · cases h
      · cases h
        trivial
    · exact located_of_readBranch h hcs
    · cases h
  · unfold readAlu at h
    split at h
    · next found hfound =>
      cases h
      split at hfound
      · exact located_of_cast? hfound hcs
      · cases hfound
    · exact located_of_readCompute h hcs

end Action

/-! ## Lines -/

namespace LogLine

/-- Every place that an instruction keeps is that of its text in the line. -/
theorem action_located {raw : String} {idx : Int} {line : LogLine} {ins : Instruction}
    (hread : read raw idx = .ok line) (hins : line.instruction? = some ins) :
    ins.action.Located raw.toList := by
  obtain ⟨digits, body, rest, pc, hhead, haction, -, -⟩ := read_instruction hread hins
  obtain ⟨-, hbody⟩ := Instruction.head?_part hhead
  exact Action.located_of_read haction hbody

/-- A store with white space around its parts, and with a fact behind it. -/
def spacedLine : String := "  12: (7b)  *(u64 *)(r10 -16)\t=   r1   ; R10=fp0"

theorem spacedLine_located : ∃ line ins, read spacedLine 3 = .ok line ∧
    line.instruction? = some ins ∧
    (ins.action.extents.map fun e => String.ofList (e.text spacedLine.toList)) =
      ["*(u64 *)(r10 -16)", "r1"] ∧
    ins.action.Located spacedLine.toList := by
  have hstore : ∃ line ins, read spacedLine 3 = .ok line ∧ line.instruction? = some ins ∧
      (ins.action.extents.map fun e => String.ofList (e.text spacedLine.toList)) =
        ["*(u64 *)(r10 -16)", "r1"] := ⟨_, _, rfl, rfl, by decide +kernel⟩
  obtain ⟨line, ins, hread, hins, htexts⟩ := hstore
  exact ⟨line, ins, hread, hins, htexts, action_located hread hins⟩

end LogLine
end VerifierTrace
