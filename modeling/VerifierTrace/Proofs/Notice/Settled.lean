import VerifierTrace.Proofs.LogLine.Numbered

/-!
# VerifierTrace.Proofs.Notice.Settled

What the notices of a log come to, line by line.

Notices reach back to lines before them. Seen from an instruction line it depends only on the lines
behind it: its call is folded if the very next line is a notice of a global function, and its facts
are followed by those of all blocks up to the next instruction.

* `LogLine.settledBy`: a line as the lines behind it leave it.
* `Notice.settled`: all lines of a log as the lines behind them leave them.
* `Notice.settleAll_eq`: that is what one pass over the notices makes of the log.
-/

namespace VerifierTrace
namespace LogLine

/-- The facts of a block that stands on a line of its own. -/
def blockFacts (l : LogLine) : List StateExpr :=
  match l.content with
  | .notice (.stateBlock _ exprs) => exprs
  | _ => []

/-- The name of the global function that a line says is assumed valid. -/
def assumed? (l : LogLine) : Option String :=
  match l.content with
  | .notice (.globalFunction _ name) => some name
  | _ => none

theorem content_of_isInstruction {l : LogLine} (h : l.isInstruction = true) :
    ∃ ins exprs, l.content = .instruction ins exprs := by
  unfold isInstruction instruction? at h
  split at h
  · next ins exprs hcontent => exact ⟨ins, exprs, hcontent⟩
  · cases h

theorem content_ne_of_not_isInstruction {l : LogLine} (h : l.isInstruction = false)
    {ins : Instruction} {exprs : List StateExpr} : l.content ≠ .instruction ins exprs := by
  intro hcontent
  rw [isInstruction, instruction?, hcontent] at h
  cases h

end LogLine

namespace Notice

variable (config : Config)

/-- The facts of all blocks up to the next instruction. -/
def blocksAhead (rest : List LogLine) : List StateExpr :=
  (rest.takeWhile fun l => !l.isInstruction).flatMap LogLine.blockFacts

/-- The facts that the lines behind an instruction have for it, if they count. -/
def factsAhead (rest : List LogLine) : List StateExpr :=
  if config.mergeBlocks then blocksAhead rest else []

/-- The name that a call takes by the lines behind it, if calls are folded. -/
def nameAhead? (rest : List LogLine) : Option String :=
  if config.foldCalls then rest.head?.bind LogLine.assumed? else none

end Notice

namespace Instruction

/-- The instruction with a call of the helper `name?` in place of a call of a subprogram. -/
def assuming (name? : Option String) (ins : Instruction) : Instruction :=
  match name?, ins.action with
  | some name, .callSubprogram _ extent => { ins with action := .callHelper name extent }
  | _, _ => ins

end Instruction

namespace LogLine

/-- A line as the lines behind it leave it. -/
def settledBy (config : Config) (line : LogLine) (rest : List LogLine) : LogLine :=
  match line.content with
  | .instruction ins exprs =>
    line.withInstruction (ins.assuming (Notice.nameAhead? config rest))
      (exprs ++ Notice.factsAhead config rest)
  | _ => line

end LogLine

namespace Notice

variable (config : Config)

/-- All lines of a log as the lines behind them leave them. -/
def settled : List LogLine → List LogLine
  | [] => []
  | line :: rest => line.settledBy config rest :: settled rest

/-! ## One notice -/

/-- The lines before a notice, the nearest first, with the nearest one folded if it can be. -/
def foldNearest (name? : Option String) (before : List LogLine) : List LogLine :=
  (name?.bind fun name => fold? name before).getD before

/-- The lines before a notice, the nearest first, with facts added to the nearest instruction. -/
def mergeNearest (exprs : List StateExpr) (before : List LogLine) : List LogLine :=
  (merge? exprs before).getD before

/-- The lines before some others, the nearest first, as those leave them. -/
def settleBack (rest before : List LogLine) : List LogLine :=
  mergeNearest (factsAhead config rest) (foldNearest (nameAhead? config rest) before)

theorem mergeNearest_instruction {line : LogLine} {ins : Instruction} {own : List StateExpr}
    (h : line.content = .instruction ins own) (exprs : List StateExpr) (before : List LogLine) :
    mergeNearest exprs (line :: before) = line.withInstruction ins (own ++ exprs) :: before := by
  simp only [mergeNearest, merge?, LogLine.extended?, h, Option.getD_some]

theorem mergeNearest_other {line : LogLine} (h : line.isInstruction = false)
    (exprs : List StateExpr) (before : List LogLine) :
    mergeNearest exprs (line :: before) = line :: mergeNearest exprs before := by
  have hextended : line.extended? exprs = none := by
    unfold LogLine.extended?
    split
    · next hcontent => exact absurd hcontent (LogLine.content_ne_of_not_isInstruction h)
    · rfl
  simp only [mergeNearest, merge?, hextended]
  cases merge? exprs before with
  | some before' => rfl
  | none => rfl

theorem mergeNearest_nil (before : List LogLine) : mergeNearest [] before = before := by
  induction before with
  | nil => rfl
  | cons line before ih =>
    cases hline : line.isInstruction with
    | false => rw [mergeNearest_other hline, ih]
    | true =>
      obtain ⟨ins, own, hcontent⟩ := LogLine.content_of_isInstruction hline
      rw [mergeNearest_instruction hcontent, List.append_nil, LogLine.withInstruction, ← hcontent]

theorem mergeNearest_mergeNearest (first second : List StateExpr) (before : List LogLine) :
    mergeNearest second (mergeNearest first before) = mergeNearest (first ++ second) before := by
  induction before with
  | nil => rfl
  | cons line before ih =>
    cases hline : line.isInstruction with
    | false =>
      rw [mergeNearest_other hline, mergeNearest_other hline, mergeNearest_other hline, ih]
    | true =>
      obtain ⟨ins, own, hcontent⟩ := LogLine.content_of_isInstruction hline
      have hmerged : (line.withInstruction ins (own ++ first)).content =
          .instruction ins (own ++ first) := rfl
      rw [mergeNearest_instruction hcontent, mergeNearest_instruction hmerged,
        mergeNearest_instruction hcontent, List.append_assoc]
      rfl

theorem foldNearest_cons (name? : Option String) {line : LogLine} {ins : Instruction}
    {own : List StateExpr} (h : line.content = .instruction ins own) (before : List LogLine) :
    foldNearest name? (line :: before) =
      line.withInstruction (ins.assuming name?) own :: before := by
  have hsame : line = line.withInstruction ins own := by rw [LogLine.withInstruction, ← h]
  cases name? with
  | none =>
    show line :: before = line.withInstruction ins own :: before
    rw [← hsame]
  | some name =>
    obtain ⟨opcode, pc, action⟩ := ins
    cases action with
    | callSubprogram target extent =>
      simp only [foldNearest, Option.bind_some, fold?, LogLine.folded?, h, Option.map_some,
        Option.getD_some, Instruction.assuming]
    | compute op dst src | cast dst src toSpace fromSpace | exit | goto word target extent
    | branch left op right target | callHelper target extent =>
      simp only [foldNearest, Option.bind_some, fold?, LogLine.folded?, h, Option.map_none,
        Option.getD_none, Instruction.assuming, ← hsame]

/-- A line without an instruction keeps a notice behind it from the call before it. -/
theorem foldNearest_of_not_isInstruction (name? : Option String) {line : LogLine}
    (h : line.isInstruction = false) (before : List LogLine) :
    foldNearest name? (line :: before) = line :: before := by
  cases name? with
  | none => rfl
  | some name =>
    have hfolded : line.folded? name = none := by
      unfold LogLine.folded?
      split
      · next hcontent => exact absurd hcontent (LogLine.content_ne_of_not_isInstruction h)
      · rfl
    rw [foldNearest, Option.bind_some, fold?, hfolded]
    rfl

/-! ## All notices -/

theorem blocksAhead_cons (line : LogLine) (rest : List LogLine) :
    blocksAhead (line :: rest) =
      if line.isInstruction then [] else line.blockFacts ++ blocksAhead rest := by
  rw [blocksAhead, List.takeWhile_cons]
  cases line.isInstruction with
  | false => rfl
  | true => rfl

theorem factsAhead_cons {line : LogLine} (h : line.isInstruction = false) (rest : List LogLine) :
    factsAhead config (line :: rest) =
      (if config.mergeBlocks then line.blockFacts else []) ++ factsAhead config rest := by
  unfold factsAhead
  split
  · rw [blocksAhead_cons, h]
    rfl
  · rfl

/-- An instruction takes all that the lines behind it have. -/
theorem settleBack_instruction {line : LogLine} (h : line.isInstruction = true)
    (rest before : List LogLine) :
    settleBack config rest (line :: before) = line.settledBy config rest :: before := by
  obtain ⟨ins, own, hcontent⟩ := LogLine.content_of_isInstruction h
  have hfolded : (line.withInstruction (ins.assuming (nameAhead? config rest)) own).content =
      .instruction (ins.assuming (nameAhead? config rest)) own := rfl
  rw [settleBack, foldNearest_cons _ hcontent, mergeNearest_instruction hfolded,
    LogLine.settledBy, hcontent]
  rfl

theorem settleBack_before_instruction {line : LogLine} (h : line.isInstruction = true)
    (rest before : List LogLine) : settleBack config (line :: rest) before = before := by
  have hfacts : factsAhead config (line :: rest) = [] := by
    rw [factsAhead, blocksAhead_cons, if_pos h, ite_self]
  have hname : nameAhead? config (line :: rest) = none := by
    obtain ⟨ins, own, hcontent⟩ := LogLine.content_of_isInstruction h
    simp [nameAhead?, LogLine.assumed?, hcontent]
  rw [settleBack, hfacts, hname, mergeNearest_nil]
  rfl

/-- The lines before another line, the nearest first, as that one line leaves them. -/
def settleOne (line : LogLine) (before : List LogLine) : List LogLine :=
  mergeNearest (if config.mergeBlocks then line.blockFacts else [])
    (foldNearest (nameAhead? config [line]) before)

/-- What lies behind a line without an instruction goes to the lines before it. -/
theorem settleBack_other {line : LogLine} (h : line.isInstruction = false)
    (rest before : List LogLine) :
    settleBack config rest (line :: settleOne config line before) =
      line :: settleBack config (line :: rest) before := by
  have hname : nameAhead? config (line :: rest) = nameAhead? config [line] := rfl
  rw [settleBack, foldNearest_of_not_isInstruction _ h, mergeNearest_other h, settleOne,
    mergeNearest_mergeNearest, settleBack, factsAhead_cons config h, hname]

theorem settledBy_of_not_isInstruction {line : LogLine} (h : line.isInstruction = false)
    (rest : List LogLine) : line.settledBy config rest = line := by
  unfold LogLine.settledBy
  split
  · next hcontent => exact absurd hcontent (LogLine.content_ne_of_not_isInstruction h)
  · rfl

theorem settle?_getD {line : LogLine} {n : Notice} (h : line.content = .notice n)
    (before : List LogLine) :
    ((settle? config before n).map Prod.fst).getD before = settleOne config line before := by
  have hfst : ∀ (found : Option (List LogLine)) (f : List LogLine → Settlement),
      (found.map fun lines => (lines, f lines)).map Prod.fst = found := by
    intro found f
    cases found with
    | none => rfl
    | some lines => rfl
  cases n with
  | globalFunction id name =>
    have hfacts : (if config.mergeBlocks then line.blockFacts else []) = [] := by
      rw [LogLine.blockFacts, h]
      split
      · rfl
      · rfl
    rw [settleOne, hfacts, mergeNearest_nil]
    simp only [settle?, nameAhead?, List.head?_cons, Option.bind_some, LogLine.assumed?, h]
    cases config.foldCalls with
    | false => rfl
    | true =>
      rw [if_pos rfl, if_pos rfl, hfst]
      rfl
  | stateBlock pc exprs =>
    have hname : nameAhead? config [line] = none := by
      simp [nameAhead?, LogLine.assumed?, h]
    rw [settleOne, hname, LogLine.blockFacts, h]
    simp only [settle?]
    cases config.mergeBlocks with
    | false =>
      rw [if_neg (by decide), if_neg (by decide), mergeNearest_nil]
      rfl
    | true =>
      rw [if_pos rfl, if_pos rfl, hfst]
      rfl

theorem settleOne_of_content {line : LogLine} (h : ∀ n, line.content ≠ .notice n)
    (before : List LogLine) : settleOne config line before = before := by
  have hassumed : line.assumed? = none := by
    unfold LogLine.assumed?
    split
    · next hcontent => exact absurd hcontent (h _)
    · rfl
  have hfacts : line.blockFacts = [] := by
    unfold LogLine.blockFacts
    split
    · next hcontent => exact absurd hcontent (h _)
    · rfl
  have hname : nameAhead? config [line] = none := by simp [nameAhead?, hassumed]
  rw [settleOne, hfacts, hname, ite_self, mergeNearest_nil]
  rfl

/-- The pass goes on with the lines as the next one leaves them. -/
theorem settleFrom_cons (line : LogLine) (before rest : List LogLine) :
    (settleFrom config before (line :: rest)).1 =
      (settleFrom config (line :: settleOne config line before) rest).1 := by
  rw [settleFrom]
  split
  · next n hn =>
    have hone := settle?_getD config hn before
    split
    · next before' s hs =>
      rw [hs] at hone
      rw [← hone]
      rfl
    · next hs =>
      rw [hs] at hone
      rw [← hone]
      rfl
  · next hno => rw [settleOne_of_content config hno]

theorem settleFrom_eq (before rest : List LogLine) :
    (settleFrom config before rest).1 =
      (settleBack config rest before).reverse ++ settled config rest := by
  induction rest generalizing before with
  | nil =>
    have hfacts : factsAhead config [] = [] := by simp [factsAhead, blocksAhead]
    have hname : nameAhead? config [] = none := by simp [nameAhead?]
    rw [settleBack, hfacts, hname, mergeNearest_nil, settled, List.append_nil]
    rfl
  | cons line rest ih =>
    cases hline : line.isInstruction with
    | true =>
      obtain ⟨ins, own, hcontent⟩ := LogLine.content_of_isInstruction hline
      have hno : ∀ n, line.content ≠ .notice n := by
        intro n hn
        rw [hcontent] at hn
        cases hn
      rw [settleFrom_cons, settleOne_of_content config hno, ih, settleBack_instruction config hline,
        settleBack_before_instruction config hline, List.reverse_cons, List.append_assoc, settled]
      rfl
    | false =>
      rw [settleFrom_cons, ih, settleBack_other config hline, List.reverse_cons,
        List.append_assoc, settled, settledBy_of_not_isInstruction config hline]
      rfl

/-- One pass over the notices of a log makes of every line what the lines behind it say. -/
theorem settleAll_eq (lines : List LogLine) : (settleAll config lines).1 = settled config lines := by
  have hnone : settleBack config lines [] = [] := by
    rw [settleBack, foldNearest]
    cases nameAhead? config lines with
    | none => rfl
    | some name => rfl
  rw [settleAll, settleFrom_eq, hnone]
  rfl

/-! ## Single lines -/

theorem getElem?_settled (lines : List LogLine) (i : Nat) :
    (settled config lines)[i]? =
      lines[i]?.map fun line => line.settledBy config (lines.drop (i + 1)) := by
  induction lines generalizing i with
  | nil => rfl
  | cons line rest ih =>
    cases i with
    | zero => rfl
    | succ i => exact ih i

@[simp]
theorem length_settled (lines : List LogLine) : (settled config lines).length = lines.length := by
  induction lines with
  | nil => rfl
  | cons line rest ih => rw [settled, List.length_cons, ih, List.length_cons]

/-! ## What notices keep -/

theorem map_raw_settled (lines : List LogLine) :
    (settled config lines).map LogLine.raw = lines.map LogLine.raw := by
  induction lines with
  | nil => rfl
  | cons line rest ih =>
    have hraw : (line.settledBy config rest).raw = line.raw := by
      unfold LogLine.settledBy
      split
      · rfl
      · rfl
    rw [settled, List.map_cons, List.map_cons, ih, hraw]

section Kept

variable {K : Content → Prop} {F : StateExpr → Prop}
  (hblock : ∀ {pc exprs}, K (.notice (.stateBlock pc exprs)) → ∀ e ∈ exprs, F e)
  (hinstruction : ∀ {ins exprs more} name?, K (.instruction ins exprs) → (∀ e ∈ more, F e) →
    K (.instruction (Instruction.assuming name? ins) (exprs ++ more)))

include hblock in
theorem forall_factsAhead {rest : List LogLine} (h : ∀ l ∈ rest, K l.content) :
    ∀ e ∈ factsAhead config rest, F e := by
  unfold factsAhead
  split
  · intro e he
    obtain ⟨l, hl, hfacts⟩ := List.mem_flatMap.mp he
    have hkept := h l (List.takeWhile_subset _ hl)
    unfold LogLine.blockFacts at hfacts
    split at hfacts
    · next hcontent =>
      rw [hcontent] at hkept
      exact hblock hkept e hfacts
    · cases hfacts
  · simp

include hblock hinstruction in
/-- What holds of all lines, gives `F` for the facts of their blocks, and is kept by an instruction
that takes on such facts, holds of them after the notices too. -/
theorem forall_settled {lines : List LogLine} (h : ∀ l ∈ lines, K l.content) :
    ∀ l ∈ settled config lines, K l.content := by
  induction lines with
  | nil => simp [settled]
  | cons line rest ih =>
    have hrest : ∀ l ∈ rest, K l.content := fun l hl => h l (List.mem_cons_of_mem _ hl)
    intro l hl
    rcases List.mem_cons.mp hl with rfl | hl
    · have hline := h line List.mem_cons_self
      unfold LogLine.settledBy
      split
      · next ins exprs hcontent =>
        rw [hcontent] at hline
        exact hinstruction _ hline (forall_factsAhead config hblock hrest)
      · exact hline
    · exact ih hrest l hl

end Kept

end Notice

namespace LogLine

variable (config : Config) (line : LogLine) (rest : List LogLine)

@[simp]
theorem isInstruction_settledBy :
    (line.settledBy config rest).isInstruction = line.isInstruction := by
  cases h : line.isInstruction with
  | false => rw [Notice.settledBy_of_not_isInstruction config h, h]
  | true =>
    obtain ⟨ins, exprs, hcontent⟩ := content_of_isInstruction h
    rw [settledBy, hcontent]
    rfl

/-- The facts of an instruction line are its own and those of the blocks behind it. -/
theorem exprs_settledBy (h : line.isInstruction = true) :
    (line.settledBy config rest).exprs = line.exprs ++ Notice.factsAhead config rest := by
  obtain ⟨ins, exprs, hcontent⟩ := content_of_isInstruction h
  rw [settledBy, LogLine.exprs, LogLine.exprs, hcontent]
  rfl

end LogLine
end VerifierTrace
