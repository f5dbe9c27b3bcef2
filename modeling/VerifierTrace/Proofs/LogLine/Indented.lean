import VerifierTrace.Proofs.LogLine.Located
import VerifierTrace.Proofs.Text.Blank

/-!
# VerifierTrace.Proofs.LogLine.Indented

White space in front of a line.

Every form of a line is looked for behind the white space that the line begins with, and what an
instruction keeps of its line are distances from the end. So a line that is moved in holds the same,
down to the places of its operands, or fails for the same numeral (`LogLine.read_indented`).
-/

namespace VerifierTrace

variable {front : List Char}

/-! ## Forms of lines -/

theorem SourceNote.read_behind_blank (h : Text.Blank front) (raw : List Char) :
    SourceNote.read (front ++ raw) = SourceNote.read raw := by
  rw [SourceNote.read, SourceNote.read, Text.trim_append h]

theorem Instruction.head?_behind_blank (h : Text.Blank front) (raw : List Char) :
    Instruction.head? (front ++ raw) = Instruction.head? raw := by
  rw [Instruction.head?, Instruction.head?, Text.skipBlanks_append h]

/-- Number and facts; a text that does not start with a number is left with its white space. -/
theorem StateExpr.readBare_behind_blank (h : Text.Blank front) (raw : List Char) :
    (readBare (front ++ raw)).map (fun b => (b.pc, b.exprs)) =
      (readBare raw).map fun b => (b.pc, b.exprs) := by
  unfold readBare
  rw [Text.skipBlanks_append h]
  cases pcDigits? (Text.skipBlanks raw) with
  | none => rfl
  | some found => rfl

namespace Notice

/-- The notice that a number and facts make. -/
def ofBare : Option Nat × List StateExpr → Option Notice
  | (some pc, e :: more) => some (.stateBlock pc (e :: more))
  | _ => none

/-- What is left unread of a block does not count. -/
theorem read_eq_ofBare {raw : List Char} (h : globalFunction? (Text.trim raw) = none) :
    Notice.read raw = ((StateExpr.readBare raw).map fun b => (b.pc, b.exprs)).map ofBare := by
  unfold Notice.read
  rw [h]
  match StateExpr.readBare raw with
  | .error e => rfl
  | .ok ⟨none, _, _⟩ | .ok ⟨some _, [], _⟩ | .ok ⟨some _, _ :: _, _⟩ => rfl

theorem read_behind_blank (h : Text.Blank front) (raw : List Char) :
    Notice.read (front ++ raw) = Notice.read raw := by
  have htrim := Text.trim_append h raw
  cases hglobal : globalFunction? (Text.trim raw) with
  | none =>
    rw [read_eq_ofBare hglobal, read_eq_ofBare (by rw [htrim, hglobal]),
      StateExpr.readBare_behind_blank h]
  | some found =>
    unfold Notice.read
    rw [htrim, hglobal]

end Notice

theorem Content.read_behind_blank (h : Text.Blank front) (raw : List Char) :
    Content.read (front ++ raw) = Content.read raw := by
  have hnotice : readNotice (front ++ raw) = readNotice raw := by
    rw [readNotice, readNotice, Notice.read_behind_blank h]
  have hinstruction : readInstruction (front ++ raw) = readInstruction raw := by
    rw [readInstruction, readInstruction, Instruction.head?_behind_blank h, hnotice]
  rw [Content.read, Content.read, SourceNote.read_behind_blank h, hinstruction]

/-! ## Places -/

theorem Action.Located.marks {line : List Char} {action : Action} (h : action.Located line) :
    ∀ e ∈ action.extents, ∃ part, e.Marks line part := by
  have hpaired : ∀ {left right : Operand}, Operand.Paired line left right →
      ∀ e ∈ [left.extent, right.extent], ∃ part, e.Marks line part := by
    rintro left right ⟨⟨part, extent, hmarks, -⟩, ⟨part', extent', hmarks', -⟩, -⟩ e he
    rcases List.mem_pair.mp he with rfl | rfl
    · exact ⟨part, hmarks⟩
    · exact ⟨part', hmarks'⟩
  cases action with
  | compute | cast | branch => exact hpaired h
  | goto | callHelper | callSubprogram =>
    intro e he
    rw [List.mem_singleton.mp he]
    exact ⟨_, h⟩
  | exit =>
    intro e he
    cases he

namespace LogLine

/-- White space in front of a line changes nothing but its text: the line holds the same, whatever its
form, or fails for the same numeral. The places of an instruction hold the same texts. -/
theorem read_indented {w : String} (h : Text.Blank w.toList) (raw : String) (idx : Int) :
    LogLine.read (w ++ raw) idx =
        (LogLine.read raw idx).map (fun line => { line with raw := w ++ raw }) ∧
      ∀ line ins, LogLine.read raw idx = .ok line → line.instruction? = some ins →
        ∀ e ∈ ins.action.extents, e.text (w ++ raw).toList = e.text raw.toList := by
  constructor
  · unfold LogLine.read
    rw [String.toList_append, Content.read_behind_blank h]
    cases Content.read raw.toList with
    | error e => rfl
    | ok content => rfl
  · intro line ins hread hins e he
    obtain ⟨digits, body, rest, pc, hhead, haction, -, -⟩ := read_instruction hread hins
    obtain ⟨-, hbody⟩ := Instruction.head?_part hhead
    obtain ⟨part, hmarks⟩ := (Action.located_of_read haction hbody).marks e he
    rw [String.toList_append, hmarks.text w.toList]
    exact (hmarks.text []).symm

/-- A store behind a tab, an ideographic space and a no-break space. -/
theorem read_indented_store : ∃ line ins,
    LogLine.read "5: (7b) *(u64 *)(r10 -8) = r1 ; R1=4" 3 = .ok line ∧
    line.instruction? = some ins ∧
    LogLine.read "\t\u3000\u00a05: (7b) *(u64 *)(r10 -8) = r1 ; R1=4" 3 =
      .ok { line with raw := "\t\u3000\u00a05: (7b) *(u64 *)(r10 -8) = r1 ; R1=4" } ∧
    ∀ e ∈ ins.action.extents,
      e.text "\t\u3000\u00a05: (7b) *(u64 *)(r10 -8) = r1 ; R1=4".toList =
        e.text "5: (7b) *(u64 *)(r10 -8) = r1 ; R1=4".toList := by
  have hstore : ∃ line ins, LogLine.read "5: (7b) *(u64 *)(r10 -8) = r1 ; R1=4" 3 = .ok line ∧
      line.instruction? = some ins := ⟨_, _, rfl, rfl⟩
  obtain ⟨line, ins, hread, hins⟩ := hstore
  have hblank : Text.Blank "\t\u3000\u00a0".toList := by decide
  obtain ⟨hindented, hplaces⟩ := read_indented hblank "5: (7b) *(u64 *)(r10 -8) = r1 ; R1=4" 3
  rw [hread] at hindented
  exact ⟨line, ins, hread, hins, hindented, hplaces line ins hread hins⟩

end LogLine
end VerifierTrace
