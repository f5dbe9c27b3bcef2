import VerifierTrace.Proofs.Instruction.Trailing
import VerifierTrace.Proofs.LogLine.Printed

/-!
# VerifierTrace.Proofs.LogLine.Block

Facts behind an instruction, whatever its form.

A line whose instruction ends it may be followed by any number of spaces, the marker `; ` and a block
of facts. It still holds that instruction, and the facts are those of the block (`read_block`); only
a cast with spaces behind it loses them.

* `Instruction.unread?`: what a line has behind its instruction.
* `Block.text`: spaces, the marker, and a text.
* `Block.facts`: the facts that a line with a given action takes from there.
-/

namespace VerifierTrace

/-- Whether the action casts an address between spaces. -/
def Action.isCast : Action → Bool
  | .cast .. => true
  | _ => false

namespace Instruction

def lowered (n : Nat) (ins : Instruction) : Instruction :=
  { ins with action := ins.action.lowered n }

/-- The text behind the instruction that a line begins with. -/
def unread? (raw : List Char) : Option (List Char) :=
  match head? raw with
  | none => none
  | some (_, opcode, body) => (Action.read opcode body).toOption.map Prod.snd

end Instruction

namespace Block

/-- A text behind `k` spaces and the marker. -/
def text (k : Nat) (b : String) : String :=
  String.ofList (List.replicate k ' ' ++ (StateExpr.marker ++ b.toList))

/-- The facts of a text behind the marker that an action is followed by after `k` spaces. A cast
does not look beyond the first space. -/
def facts (action : Action) (k : Nat) (b : String) : Except NumeralFault (List StateExpr) :=
  if action.isCast ∧ 0 < k then .ok []
  else (StateExpr.readBlock false (StateExpr.marker ++ b.toList)).map Prod.fst

theorem apart (k : Nat) (b : String) : Apart (text k b).toList := by
  intro c hc
  rw [text, String.toList_ofList] at hc
  cases k with
  | zero =>
    cases hc
    exact .inr rfl
  | succ k =>
    cases hc
    exact .inl rfl

theorem skipBlanks_text (k : Nat) (b : String) :
    Text.skipBlanks (text k b).toList = StateExpr.marker ++ b.toList := by
  rw [text, String.toList_ofList, Text.skipBlanks_append (Text.blank_replicate k)]
  rfl

/-- Behind the marker it makes no difference whether it must be there. -/
theorem readBlock_marker (markerRequired : Bool) (b : List Char) :
    StateExpr.readBlock markerRequired (StateExpr.marker ++ b) = StateExpr.readFramed b := by
  rw [StateExpr.readBlock, isPrefixOf?_append]

theorem readBlock_leaves (action : Action) (k : Nat) (b : String) :
    (StateExpr.readBlock true (action.leaves (text k b).toList)).map Prod.fst =
      facts action k b := by
  have hmarked : StateExpr.readBlock true (StateExpr.marker ++ b.toList) =
      StateExpr.readBlock false (StateExpr.marker ++ b.toList) := by
    rw [readBlock_marker, readBlock_marker]
  cases action with
  | cast dst src toSpace fromSpace =>
    cases k with
    | zero =>
      show (StateExpr.readBlock true (text 0 b).toList).map Prod.fst = _
      rw [text, String.toList_ofList]
      exact congrArg (Except.map Prod.fst) hmarked
    | succ k =>
      -- the text begins with a space, so the marker is not at its front
      show (StateExpr.readBlock true (text (k + 1) b).toList).map Prod.fst = _
      rw [text, String.toList_ofList, facts, if_pos ⟨rfl, Nat.succ_pos k⟩]
      rfl
  | compute op dst src | exit | goto word target extent | branch left op right target
  | callHelper target extent | callSubprogram target extent =>
    show (StateExpr.readBlock true (Text.skipBlanks (text k b).toList)).map Prod.fst = _
    rw [skipBlanks_text, hmarked]
    rfl

end Block

namespace Action

theorem ne_nil_of_read {opcode : Opcode} {cs more : List Char} {action : Action}
    (h : Action.read opcode cs = .ok (action, more)) : cs ≠ [] := by
  rintro rfl
  unfold Action.read at h
  split at h
  · unfold readJump at h
    split at h
    · cases h
    · cases h
    · cases h
    · cases h
    · cases h
  · unfold readAlu at h
    split at h
    · next found hcast =>
      split at hcast
      · cases hcast
      · cases hcast
    · cases h

end Action

theorem Decimal.run?_append_of_ne_nil {cs ds more : List Char} (h : run? cs = some (ds, more))
    (hmore : more ≠ []) (rest : List Char) : run? (cs ++ rest) = some (ds, more ++ rest) := by
  unfold run? run at h ⊢
  split at h
  · cases h
  · next hdigits =>
    cases h
    have hends : (cs.takeWhile Char.isDigit).length ≠ cs.length := by
      intro hlen
      have hsplit := congrArg List.length
        (List.takeWhile_append_dropWhile (p := Char.isDigit) (l := cs))
      rw [List.length_append, hlen] at hsplit
      exact hmore (List.length_eq_zero_iff.mp (by omega))
    simp only [List.takeWhile_append, List.dropWhile_append, if_neg hends,
      List.isEmpty_eq_false_iff.mpr hmore, Bool.false_eq_true, if_false, if_neg hdigits]

namespace Instruction

theorem pcDigits?_append {cs digits more : List Char}
    (h : StateExpr.pcDigits? cs = some (digits, more)) (rest : List Char) :
    StateExpr.pcDigits? (cs ++ rest) = some (digits, more ++ rest) := by
  unfold StateExpr.pcDigits? at h
  split at h
  · next hrun =>
    cases h
    rw [StateExpr.pcDigits?, Decimal.run?_append_of_ne_nil hrun (List.cons_ne_nil _ _)]
    rfl
  · cases h

theorem opcode?_append {opcode : Opcode} {cs more : List Char}
    (h : opcode? cs = some (opcode, more)) (rest : List Char) :
    opcode? (cs ++ rest) = some (opcode, more ++ rest) := by
  unfold opcode? at h
  split at h
  · next high low tail =>
    split at h
    · next hhex =>
      obtain ⟨o, ho, heq⟩ := Option.map_eq_some_iff.mp h
      cases heq
      simp only [List.cons_append, opcode?, if_pos hhex, ho, Option.map_some]
    · cases h
  · cases h

theorem head?_eq_some {raw digits body : List Char} {opcode : Opcode}
    (h : head? raw = some (digits, opcode, body)) :
    ∃ behindPc behindOpcode, StateExpr.pcDigits? (Text.skipBlanks raw) = some (digits, behindPc) ∧
      opcode? (Text.skipBlanks behindPc) = some (opcode, behindOpcode) ∧
      body = Text.skipBlanks behindOpcode := by
  unfold head? at h
  simp only [Option.bind_eq_bind, Option.bind_eq_some_iff] at h
  obtain ⟨⟨ds, behindPc⟩, hpc, ⟨o, behindOpcode⟩, hopcode, heq⟩ := h
  cases heq
  exact ⟨behindPc, behindOpcode, hpc, hopcode, rfl⟩

theorem head?_append {raw digits body : List Char} {opcode : Opcode}
    (h : head? raw = some (digits, opcode, body)) (hbody : body ≠ []) (rest : List Char) :
    head? (raw ++ rest) = some (digits, opcode, body ++ rest) := by
  obtain ⟨behindPc, behindOpcode, hpc, hopcode, rfl⟩ := head?_eq_some h
  have hraw : Text.skipBlanks raw ≠ [] := by
    intro hnil
    rw [hnil] at hpc
    cases hpc
  have hbehind : Text.skipBlanks behindPc ≠ [] := by
    intro hnil
    rw [hnil] at hopcode
    cases hopcode
  simp only [head?, skipBlanks_append_of_ne_nil hraw, pcDigits?_append hpc rest,
    skipBlanks_append_of_ne_nil hbehind, opcode?_append hopcode rest,
    skipBlanks_append_of_ne_nil hbody, Option.bind_eq_bind, Option.bind_some, Option.pure_def]

theorem finish_ok {digits rest : List Char} {opcode : Opcode} {action : Action}
    {ins : Instruction} {exprs : List StateExpr}
    (h : finish digits opcode action rest = .ok (ins, exprs)) :
    ∃ pc, Decimal.read digits = .ok pc ∧ ins = ⟨opcode, some pc, action⟩ := by
  unfold finish at h
  split at h
  · cases h
  · split at h
    · cases h
    · next pc hpc =>
      cases h
      exact ⟨pc, hpc, rfl⟩

theorem sourceNote_of_head? {raw digits body : List Char} {opcode : Opcode}
    (h : head? raw = some (digits, opcode, body)) : SourceNote.read raw = .ok none := by
  obtain ⟨behindPc, -, hpc, -⟩ := head?_eq_some h
  have hdigit : ∃ c cs, Text.skipBlanks raw = c :: cs ∧ c.isDigit = true := by
    unfold StateExpr.pcDigits? at hpc
    split at hpc
    · next hrun => exact eq_cons_of_run? hrun
    · cases hpc
  obtain ⟨c, cs, hraw, hc⟩ := hdigit
  have hnone := SourceNote.split?_trim_eq_none hraw (ne_of_isDigit hc (by decide))
  rw [SourceNote.read, hnone]

end Instruction

namespace LogLine

theorem read_instruction {raw : String} {idx : Int} {line : LogLine} {ins : Instruction}
    (hread : LogLine.read raw idx = .ok line) (hins : line.instruction? = some ins) :
    ∃ digits body rest pc, Instruction.head? raw.toList = some (digits, ins.opcode, body) ∧
      Action.read ins.opcode body = .ok (ins.action, rest) ∧ Decimal.read digits = .ok pc ∧
      ins.pc = some pc := by
  unfold LogLine.read at hread
  split at hread
  · cases hread
  · next content hcontent =>
    cases hread
    unfold Content.read at hcontent
    split at hcontent
    · cases hcontent
    · cases hcontent
      cases hins
    · unfold Content.readInstruction at hcontent
      split at hcontent
      · unfold Content.readNotice at hcontent
        split at hcontent
        · cases hcontent
        · cases hcontent
          cases hins
        · cases hcontent
          cases hins
      · next digits opcode body hhead =>
        split at hcontent
        · cases hcontent
          cases hins
        · cases hcontent
        · next action rest haction =>
          split at hcontent
          · cases hcontent
          · next ins' exprs hfinish =>
            cases hcontent
            cases hins
            obtain ⟨pc, hpc, rfl⟩ := Instruction.finish_ok hfinish
            exact ⟨digits, body, rest, pc, hhead, haction, hpc, rfl⟩

/-- Facts behind an instruction that ends its line, after any number of spaces, do not change the
instruction, and they are the facts of the line, unless spaces stand behind a cast. -/
theorem read_block {raw : String} {idx : Int} {line : LogLine} {ins : Instruction}
    (hread : LogLine.read raw idx = .ok line) (hins : line.instruction? = some ins)
    (hend : Instruction.unread? raw.toList = some []) (k : Nat) (b : String) :
    LogLine.read (raw ++ Block.text k b) idx =
      (Block.facts ins.action k b).map fun exprs =>
        ⟨idx, raw ++ Block.text k b,
          .instruction (ins.lowered (Block.text k b).toList.length) exprs⟩ := by
  obtain ⟨digits, body, rest, pc, hhead, haction, hpc, hins'⟩ := read_instruction hread hins
  have hrest : rest = [] := by
    simpa [Instruction.unread?, hhead, haction, Except.toOption] using hend
  subst hrest
  have hhead' := Instruction.head?_append hhead (Action.ne_nil_of_read haction)
    (Block.text k b).toList
  have haction' := (Block.apart k b).read_append haction
  have hfacts := Block.readBlock_leaves ins.action k b
  obtain ⟨opcode, pc', action⟩ := ins
  cases hins'
  simp only [LogLine.read, Content.read, String.toList_append, Instruction.sourceNote_of_head? hhead',
    Content.readInstruction, hhead', haction', Instruction.finish, hpc, ← hfacts]
  cases StateExpr.readBlock true (action.leaves (Block.text k b).toList) with
  | error e => rfl
  | ok found => rfl

/-- A store with two spaces and a block of facts behind it. -/
theorem read_block_store : ∃ ins,
    LogLine.read ("5: (7b) *(u64 *)(r10 -8) = r1" ++ Block.text 2 "frame1: R1=4 fp-8_w=4") 4 =
      .ok ⟨4, "5: (7b) *(u64 *)(r10 -8) = r1  ; frame1: R1=4 fp-8_w=4",
        .instruction ins [⟨"r1", "4", "R1", some 1⟩, ⟨"fp-8", "4", "fp-8_w", some 1⟩]⟩ := by
  have hstore : ∃ line ins, LogLine.read "5: (7b) *(u64 *)(r10 -8) = r1" 4 = .ok line ∧
      line.instruction? = some ins ∧ ins.action.isCast = false := ⟨_, _, rfl, rfl, rfl⟩
  obtain ⟨line, ins, hread, hins, hcast⟩ := hstore
  have hfacts : Block.facts ins.action 2 "frame1: R1=4 fp-8_w=4" =
      .ok [⟨"r1", "4", "R1", some 1⟩, ⟨"fp-8", "4", "fp-8_w", some 1⟩] := by
    rw [Block.facts, hcast]
    decide +kernel
  have hblock := read_block hread hins (by decide +kernel) 2 "frame1: R1=4 fp-8_w=4"
  rw [hfacts] at hblock
  exact ⟨_, hblock⟩

/-- A cast with one space and a block of facts behind it: the line has none of the facts. -/
theorem read_block_cast :
    Instruction.unread? "3172: (bf) r1 = addr_space_cast(r8, 0, 1)".toList = some [] ∧
      (LogLine.read ("3172: (bf) r1 = addr_space_cast(r8, 0, 1)" ++
        Block.text 1 "frame1: R1_w=arena R8=scalar()") 20).map LogLine.exprs = .ok [] ∧
      (StateExpr.readBlock false "; frame1: R1_w=arena R8=scalar()".toList).map Prod.fst =
        .ok [⟨"r1", "arena", "R1_w", some 1⟩, ⟨"r8", "scalar()", "R8", some 1⟩] := by
  decide +kernel

end LogLine
end VerifierTrace
