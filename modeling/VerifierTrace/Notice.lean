import VerifierTrace.Config.Basic

/-!
# VerifierTrace.Notice

What the notices of a log say about the instructions before them.

* A global function that is assumed valid is not entered: the subprogram call on the line right
  before such a notice becomes a call of a helper (`Notice.fold?`).
* Facts on a line without an instruction belong to the closest instruction before it
  (`Notice.merge?`).

Both work on the lines before the notice, the nearest first. `Notice.settleAll` goes through a log
once; what notices did earlier in the log is there when later ones look at it.
-/

namespace VerifierTrace

/-- What a notice did to the lines before it, with the positions of the lines. -/
inductive Settlement where
  | folded (line : Int) (name : String)
  /-- So many facts on a line were added to another. -/
  | merged (line : Int) (count : Nat) (into : Int)
  deriving DecidableEq, Repr

namespace LogLine

def withInstruction (l : LogLine) (ins : Instruction) (exprs : List StateExpr) : LogLine :=
  { l with content := .instruction ins exprs }

/-- The line with a call of the helper `name` in place of a call of a subprogram; `none` for any
other line. -/
def folded? (l : LogLine) (name : String) : Option LogLine :=
  match l.content with
  | .instruction ins exprs =>
    match ins.action with
    | .callSubprogram _ extent =>
      some (l.withInstruction { ins with action := .callHelper name extent } exprs)
    | _ => none
  | _ => none

/-- An instruction line with more facts behind it; `none` for any other line. -/
def extended? (l : LogLine) (more : List StateExpr) : Option LogLine :=
  match l.content with
  | .instruction ins exprs => some (l.withInstruction ins (exprs ++ more))
  | _ => none

end LogLine

namespace Notice

/-- Folds the call on the nearest line. -/
def fold? (name : String) : List LogLine → Option (List LogLine)
  | [] => none
  | line :: before => (line.folded? name).map (· :: before)

def merge? (exprs : List StateExpr) : List LogLine → Option (List LogLine)
  | [] => none
  | line :: before =>
    match line.extended? exprs with
    | some line => some (line :: before)
    | none => (merge? exprs before).map (line :: ·)

/-- The position of the nearest instruction line. -/
def nearest (before : List LogLine) : Int :=
  ((before.dropWhile fun l => !l.isInstruction).length : Int) - 1

/-- The lines before a notice after it took effect, and what it did; `none` if it did nothing. -/
def settle? (config : Config) (before : List LogLine) : Notice → Option (List LogLine × Settlement)
  | .globalFunction _ name =>
    if config.foldCalls then
      (fold? name before).map fun lines => (lines, .folded ((before.length : Int) - 1) name)
    else none
  | .stateBlock _ exprs =>
    if config.mergeBlocks then
      (merge? exprs before).map fun lines =>
        (lines, .merged before.length exprs.length (nearest before))
    else none

def settleFrom (config : Config) (before : List LogLine) :
    List LogLine → List LogLine × List Settlement
  | [] => (before.reverse, [])
  | line :: rest =>
    match line.content with
    | .notice n =>
      match settle? config before n with
      | some (before', s) =>
        let (lines, more) := settleFrom config (line :: before') rest
        (lines, s :: more)
      | none => settleFrom config (line :: before) rest
    | _ => settleFrom config (line :: before) rest

/-- The lines of a log after all its notices took effect, and what each of them did. -/
def settleAll (config : Config) (lines : List LogLine) : List LogLine × List Settlement :=
  settleFrom config [] lines

/-- The lines of a log after one notice, which stands before position `k`, took effect, and what it
did; `none` if it did nothing. -/
def settleAt? (config : Config) (k : Nat) (n : Notice) (lines : List LogLine) :
    Option (List LogLine × Settlement) :=
  (settle? config (lines.take k).reverse n).map fun (before, s) =>
    (before.reverse ++ lines.drop k, s)

end Notice
end VerifierTrace
