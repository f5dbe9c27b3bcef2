import VerifierTrace.Proofs.Notice.Inserted

/-!
# VerifierTrace.Proofs.Notice.Counted

The notices of a log in closed form, and how many of them take effect.

One pass over the notices looks back at lines that earlier ones may have changed. That never matters:
a folded call is no more the line before a later notice, and no notice makes an instruction or takes
one away. So each notice takes effect by the lines that were read (`takesEffect_eq`), and
`settleAll_closedForm` says without any order what becomes of every line and how many notices did
something.
-/

namespace VerifierTrace
namespace LogLine

def isBlock (l : LogLine) : Bool :=
  match l.content with
  | .notice (.stateBlock ..) => true
  | _ => false

theorem isSome_folded? (l : LogLine) (name : String) : (l.folded? name).isSome = l.isCall := by
  unfold folded? isCall instruction?
  cases l.content with
  | instruction ins exprs =>
    obtain ⟨opcode, pc, action⟩ := ins
    cases action <;> rfl
  | source note | notice what | unrecognized fault => rfl

end LogLine

namespace Notice

variable (config : Config)

/-- The name that the call on line `i` takes when it is folded, that of the global function on the
next line. -/
def foldedName? (lines : List LogLine) (i : Nat) : Option String :=
  if lines[i]?.any LogLine.isCall then nameAhead? config (lines.drop (i + 1)) else none

/-- Whether line `i` is a block with an instruction somewhere before it. -/
def blockApplies (lines : List LogLine) (i : Nat) : Bool :=
  lines[i]?.any LogLine.isBlock && (lines.take i).any LogLine.isInstruction

/-- The number of lines for whose positions a test succeeds. -/
def countLines (lines : List LogLine) (test : Nat → Bool) : Nat :=
  (List.range lines.length).countP test

/-! ## One notice -/

/-- Whether a line is a notice that does something to the lines before it, the nearest first. -/
def takesEffect (before : List LogLine) (line : LogLine) : Bool :=
  match line.content with
  | .notice n => (settle? config before n).isSome
  | _ => false

theorem isSome_fold? (name : String) (before : List LogLine) :
    (fold? name before).isSome = before.head?.any LogLine.isCall := by
  cases before with
  | nil => rfl
  | cons line before => rw [fold?, Option.isSome_map, LogLine.isSome_folded?]; rfl

theorem isSome_merge? (exprs : List StateExpr) (before : List LogLine) :
    (merge? exprs before).isSome = before.any LogLine.isInstruction := by
  induction before with
  | nil => rfl
  | cons line before ih =>
    unfold merge?
    cases hline : line.isInstruction with
    | true =>
      obtain ⟨ins, own, hcontent⟩ := LogLine.content_of_isInstruction hline
      simp only [LogLine.extended?, hcontent, List.any_cons, hline]
      rfl
    | false =>
      have hextended : line.extended? exprs = none := by
        unfold LogLine.extended?
        split
        · next hcontent => exact absurd hcontent (LogLine.content_ne_of_not_isInstruction hline)
        · rfl
      simp only [hextended, Option.isSome_map, ih, List.any_cons, hline, Bool.false_or]

/-- A notice takes effect if it folds a call right before it, or if it is a block and there is an
instruction before it. -/
theorem takesEffect_eq (before rest : List LogLine) (line : LogLine) :
    (takesEffect config before line).toNat =
      (before.head?.any LogLine.isCall && (nameAhead? config (line :: rest)).isSome).toNat +
        (config.mergeBlocks && line.isBlock && before.any LogLine.isInstruction).toNat := by
  unfold takesEffect nameAhead? LogLine.isBlock
  rw [List.head?_cons, Option.bind_some, LogLine.assumed?]
  cases hcontent : line.content with
  | notice n =>
    cases n with
    | globalFunction id name =>
      simp only [settle?]
      cases config.foldCalls with
      | false => simp
      | true => simp [isSome_fold?]
    | stateBlock pc exprs =>
      simp only [settle?]
      cases config.mergeBlocks with
      | false => simp
      | true => simp [isSome_merge?]
  | instruction ins exprs => simp
  | source note => simp
  | unrecognized fault => simp

theorem any_isInstruction_foldNearest (name? : Option String) (before : List LogLine) :
    (foldNearest name? before).any LogLine.isInstruction =
      before.any LogLine.isInstruction := by
  cases before with
  | nil => cases name? <;> rfl
  | cons line before =>
    cases hline : line.isInstruction with
    | false => rw [foldNearest_of_not_isInstruction name? hline]
    | true =>
      obtain ⟨ins, own, hcontent⟩ := LogLine.content_of_isInstruction hline
      rw [foldNearest_cons name? hcontent, List.any_cons, List.any_cons, hline]
      rfl

theorem any_isInstruction_mergeNearest (exprs : List StateExpr) (before : List LogLine) :
    (mergeNearest exprs before).any LogLine.isInstruction =
      before.any LogLine.isInstruction := by
  induction before with
  | nil => rfl
  | cons line before ih =>
    cases hline : line.isInstruction with
    | false => rw [mergeNearest_other hline, List.any_cons, List.any_cons, ih]
    | true =>
      obtain ⟨ins, own, hcontent⟩ := LogLine.content_of_isInstruction hline
      rw [mergeNearest_instruction hcontent, List.any_cons, List.any_cons, hline]
      rfl

/-! ## All notices -/

theorem length_settleFrom_cons (line : LogLine) (before rest : List LogLine) :
    (settleFrom config before (line :: rest)).2.length =
      (takesEffect config before line).toNat +
        (settleFrom config (line :: settleOne config line before) rest).2.length := by
  rw [settleFrom]
  split
  · next n hn =>
    have hone := settle?_getD config hn before
    have htakes : takesEffect config before line = (settle? config before n).isSome := by
      rw [takesEffect, hn]
    split
    · next before' s hs =>
      rw [hs] at hone htakes
      rw [← hone, htakes]
      exact Nat.add_comm _ _
    · next hs =>
      rw [hs] at hone htakes
      rw [← hone, htakes]
      exact (Nat.zero_add _).symm
  · next hno =>
    have htakes : takesEffect config before line = false := by
      unfold takesEffect
      split
      · next hn => exact absurd hn (hno _)
      · rfl
    rw [settleOne_of_content config hno, htakes]
    exact (Nat.zero_add _).symm

theorem countLines_cons (line : LogLine) (rest : List LogLine) (test : Nat → Bool) :
    countLines (line :: rest) test = (test 0).toNat + countLines rest fun i => test (i + 1) := by
  rw [countLines, List.length_cons, List.range_succ_eq_map, List.countP_cons, List.countP_map,
    Nat.add_comm]
  cases test 0 <;> rfl

/-- The notices that take effect from any line of the log on: the one that folds the line before,
those that fold one of the lines, and the blocks. -/
theorem length_settleFrom (before rest : List LogLine) :
    (settleFrom config before rest).2.length =
      (before.head?.any LogLine.isCall && (nameAhead? config rest).isSome).toNat +
        countLines rest (fun i => (foldedName? config rest i).isSome) +
        countLines rest fun i => config.mergeBlocks && (rest[i]?.any LogLine.isBlock &&
          (before.any LogLine.isInstruction || (rest.take i).any LogLine.isInstruction)) := by
  induction rest generalizing before with
  | nil => simp [settleFrom, nameAhead?, countLines]
  | cons line rest ih =>
    have hkept : (settleOne config line before).any LogLine.isInstruction =
        before.any LogLine.isInstruction := by
      rw [settleOne, any_isInstruction_mergeNearest, any_isInstruction_foldNearest]
    have hfolded : ((foldedName? config (line :: rest) 0).isSome).toNat =
        (line.isCall && (nameAhead? config rest).isSome).toNat := by
      unfold foldedName?
      cases hcall : line.isCall <;> simp [hcall]
    rw [length_settleFrom_cons, takesEffect_eq config before rest, ih, countLines_cons line rest,
      countLines_cons line rest, hfolded]
    simp only [List.head?_cons, Option.any_some, List.any_cons, hkept, List.getElem?_cons_zero,
      List.take_zero, List.any_nil, Bool.or_false, List.getElem?_cons_succ, List.take_succ_cons,
      foldedName?, List.drop_succ_cons, Bool.and_assoc, Bool.or_assoc, Bool.or_left_comm]
    omega

/-! ## The closed form -/

/-- What the notices of a log make of it, line by line. -/
structure ClosedForm (lines after : List LogLine) : Prop where
  length : after.length = lines.length
  /-- A line without an instruction stays. -/
  other : ∀ (i : Nat) (l : LogLine), lines[i]? = some l → l.isInstruction = false →
    after[i]? = some l
  /-- An instruction keeps all but what it does, and that it keeps unless it is a call that is
  folded. Its facts are followed by those of the blocks up to the next instruction. -/
  instruction : ∀ (i : Nat) (l : LogLine) (ins : Instruction) (exprs : List StateExpr),
    lines[i]? = some l → l.content = .instruction ins exprs →
      ∃ ins' : Instruction,
        after[i]? = some ⟨l.idx, l.raw, .instruction ins'
          (exprs ++ if config.mergeBlocks then blocksAhead (lines.drop (i + 1)) else [])⟩ ∧
        ins'.opcode = ins.opcode ∧ ins'.pc = ins.pc ∧
        ins'.action.extent? = ins.action.extent? ∧
        match foldedName? config lines i with
        | none => ins' = ins
        | some name =>
          (∃ extent, ins'.action = .callHelper name extent) ∧
            ins'.reads = ["r1", "r2", "r3", "r4", "r5"] ∧
            ins'.writes = ["r0", "r1", "r2", "r3", "r4", "r5"]

theorem closedForm_settled (lines : List LogLine) :
    ClosedForm config lines (settled config lines) where
  length := length_settled config lines
  other := by
    intro i l hl hins
    rw [getElem?_settled, hl, Option.map_some, settledBy_of_not_isInstruction config hins]
  instruction := by
    intro i l ins exprs hl hcontent
    refine ⟨ins.assuming (nameAhead? config (lines.drop (i + 1))), ?_, ?_⟩
    · rw [getElem?_settled, hl, Option.map_some, LogLine.settledBy, hcontent]
      rfl
    · obtain ⟨opcode, pc, action⟩ := ins
      unfold foldedName?
      rw [hl, Option.any_some]
      cases action with
      | callSubprogram target extent =>
        have hcall : l.isCall = true := by rw [LogLine.isCall, LogLine.instruction?, hcontent]
        rw [if_pos hcall]
        cases nameAhead? config (lines.drop (i + 1)) with
        | none => exact ⟨rfl, rfl, rfl, rfl⟩
        | some name => exact ⟨rfl, rfl, rfl, ⟨extent, rfl⟩, rfl, rfl⟩
      | compute op dst src | cast dst src toSpace fromSpace | exit | goto word target extent
      | branch left op right target | callHelper target extent =>
        have hcall : l.isCall = false := by simp [LogLine.isCall, LogLine.instruction?, hcontent]
        rw [assuming_of_not_isCall hcontent hcall, hcall]
        exact ⟨rfl, rfl, rfl, rfl⟩

/-- One pass over the notices of a log makes of every line what its closed form says, and as many
notices take effect as there are calls that are folded and, where facts are merged, blocks behind
some instruction. -/
theorem settleAll_closedForm (lines : List LogLine) :
    ClosedForm config lines (settleAll config lines).1 ∧
      (settleAll config lines).2.length =
        countLines lines (fun i => (foldedName? config lines i).isSome) +
          if config.mergeBlocks then countLines lines (blockApplies lines) else 0 := by
  refine ⟨?_, ?_⟩
  · rw [settleAll_eq]
    exact closedForm_settled config lines
  · rw [settleAll, length_settleFrom]
    simp only [List.head?_nil, Option.any_none, Bool.false_and, Bool.toNat_false, Nat.zero_add,
      List.any_nil, Bool.false_or]
    cases config.mergeBlocks with
    | false => simp [countLines]
    | true => rfl

end Notice
end VerifierTrace
