import VerifierTrace.Proofs.Machine.Renumber
import VerifierTrace.Proofs.Notice.Settled

/-!
# VerifierTrace.Proofs.Notice.Inserted

A line that is not understood among lines with notices.

Facts pass by such a line to the instruction before it. A folded call does not: its notice must stand
on the very next line. So the notices do to the other lines what they did without the line in
between, unless it parts a call from the notice that folds it (`settled_insert`). Indices do not
matter to notices (`settled_renumber`).
-/

namespace VerifierTrace
namespace Notice

variable (config : Config) (f : Int → Int)

/-- Whether a notice at the front of the second lines folds a call at the end of the first. -/
def foldsAcross (before after : List LogLine) : Bool :=
  config.foldCalls && before.getLast?.any LogLine.isCall &&
    (after.head?.bind LogLine.assumed?).isSome

theorem blocksAhead_renumber (lines : List LogLine) :
    blocksAhead (lines.map (LogLine.renumber f)) = blocksAhead lines := by
  induction lines with
  | nil => rfl
  | cons line rest ih =>
    rw [List.map_cons, blocksAhead_cons, blocksAhead_cons, ih]
    rfl

theorem nameAhead?_renumber (lines : List LogLine) :
    nameAhead? config (lines.map (LogLine.renumber f)) = nameAhead? config lines := by
  cases lines with
  | nil => rfl
  | cons line rest => rfl

theorem settledBy_renumber (line : LogLine) (rest : List LogLine) :
    (line.renumber f).settledBy config rest = (line.settledBy config rest).renumber f := by
  simp only [LogLine.settledBy, LogLine.renumber]
  split
  · rfl
  · rfl

theorem settled_renumber (lines : List LogLine) :
    settled config (lines.map (LogLine.renumber f)) =
      (settled config lines).map (LogLine.renumber f) := by
  induction lines with
  | nil => rfl
  | cons line rest ih =>
    have hline : line.settledBy config (rest.map (LogLine.renumber f)) =
        line.settledBy config rest := by
      simp only [LogLine.settledBy, factsAhead, blocksAhead_renumber, nameAhead?_renumber]
    rw [List.map_cons, settled, settled, ih, settledBy_renumber, hline, List.map_cons]

theorem assuming_of_not_isCall {line : LogLine} {ins : Instruction} {exprs : List StateExpr}
    (hcontent : line.content = .instruction ins exprs) (hcall : line.isCall = false)
    (name? : Option String) : ins.assuming name? = ins := by
  unfold Instruction.assuming
  split
  · next haction =>
    obtain ⟨opcode, pc, action⟩ := ins
    subst haction
    rw [LogLine.isCall, LogLine.instruction?, hcontent] at hcall
    cases hcall
  · rfl

variable {config} {u : LogLine} {fault : Option BodyFault} (hu : u.content = .unrecognized fault)

include hu

theorem blocksAhead_insert (before after : List LogLine) :
    blocksAhead (before.map (LogLine.renumber f) ++ u :: after.map (LogLine.renumber f)) =
      blocksAhead (before ++ after) := by
  have hins : u.isInstruction = false := by
    rw [LogLine.isInstruction, LogLine.instruction?, hu]
    rfl
  have hfacts : u.blockFacts = [] := by rw [LogLine.blockFacts, hu]
  induction before with
  | nil =>
    rw [List.map_nil, List.nil_append, blocksAhead_cons, hins, hfacts]
    exact blocksAhead_renumber f after
  | cons line before ih =>
    rw [List.map_cons, List.cons_append, List.cons_append, blocksAhead_cons, blocksAhead_cons, ih]
    rfl

theorem settledBy_insert {line : LogLine} {before after : List LogLine}
    (hfold : foldsAcross config (line :: before) after = false) :
    (line.renumber f).settledBy config
        (before.map (LogLine.renumber f) ++ u :: after.map (LogLine.renumber f)) =
      (line.settledBy config (before ++ after)).renumber f := by
  rw [settledBy_renumber]
  cases hline : line.isInstruction with
  | false =>
    rw [settledBy_of_not_isInstruction config hline, settledBy_of_not_isInstruction config hline]
  | true =>
    obtain ⟨ins, exprs, hcontent⟩ := LogLine.content_of_isInstruction hline
    have hname : ins.assuming (nameAhead? config
        (before.map (LogLine.renumber f) ++ u :: after.map (LogLine.renumber f))) =
          ins.assuming (nameAhead? config (before ++ after)) := by
      cases before with
      | cons next before => rfl
      | nil =>
        -- the next line is another one now
        cases hcall : line.isCall with
        | false =>
          rw [assuming_of_not_isCall hcontent hcall, assuming_of_not_isCall hcontent hcall]
        | true =>
          have hassumed : u.assumed? = none := by rw [LogLine.assumed?, hu]
          have hbehind : nameAhead? config (u :: after.map (LogLine.renumber f)) = none := by
            rw [nameAhead?, List.head?_cons, Option.bind_some, hassumed, ite_self]
          have hafter : nameAhead? config after = none := by
            simp only [foldsAcross, List.getLast?_singleton, Option.any_some, hcall, Bool.and_true,
              Bool.and_eq_false_iff, Option.isSome_eq_false_iff, Option.isNone_iff_eq_none] at hfold
            rw [nameAhead?]
            rcases hfold with hoff | hnone
            · rw [hoff]
              rfl
            · rw [hnone, ite_self]
          exact congrArg ins.assuming (hbehind.trans hafter.symm)
    simp only [LogLine.settledBy, hcontent, factsAhead, blocksAhead_insert f hu, hname]

/-- A line that is not understood, between lines that come under other indices, changes nothing
about them. -/
theorem settled_insert {before after : List LogLine}
    (hfold : foldsAcross config before after = false) :
    ∃ first, first.length = before.length ∧
      settled config (before ++ after) = first ++ settled config after ∧
      settled config
          (before.map (LogLine.renumber f) ++ u :: after.map (LogLine.renumber f)) =
        first.map (LogLine.renumber f) ++ u :: (settled config after).map (LogLine.renumber f) := by
  induction before with
  | nil =>
    have hins : u.isInstruction = false := by
      rw [LogLine.isInstruction, LogLine.instruction?, hu]
      rfl
    refine ⟨[], rfl, rfl, ?_⟩
    rw [List.map_nil, List.nil_append, settled, settledBy_of_not_isInstruction config hins,
      settled_renumber]
    rfl
  | cons line before ih =>
    have hbefore : foldsAcross config before after = false := by
      cases before with
      | nil => simp [foldsAcross]
      | cons next before => exact hfold
    obtain ⟨first, hlen, hwithout, hwith⟩ := ih hbefore
    refine ⟨line.settledBy config (before ++ after) :: first, ?_, ?_, ?_⟩
    · rw [List.length_cons, List.length_cons, hlen]
    · rw [List.cons_append, settled, hwithout]
      rfl
    · rw [List.map_cons, List.cons_append, settled, hwith, settledBy_insert f hu hfold,
        List.map_cons]
      rfl

end Notice
end VerifierTrace
