import VerifierTrace.Instruction.Reader
import VerifierTrace.StateExpr

/-!
# VerifierTrace.LogLine.Basic

The lines of a verifier log, by what they hold: an instruction with the facts reported behind it, a
note of a line of the program's source, a notice that bears on the instructions before it,
or nothing that is understood.
-/

namespace VerifierTrace

/-- A line of the program's source that the log announces. -/
structure SourceNote where
  file : String
  number : Nat
  content : String
  deriving DecidableEq, Repr

namespace SourceNote

/-- File and number name a line of the source. -/
def id (a : SourceNote) : String := a.file ++ ":" ++ toString a.number

/-- Whether the line is blank or the number stands for no line. -/
def ignored (a : SourceNote) : Bool := a.content.isEmpty || a.number == 0

end SourceNote

/-- What the verifier says outside instructions. -/
inductive Notice where
  /-- A global function is assumed valid: the call before does not enter it. -/
  | globalFunction (id : Nat) (name : String)
  /-- Facts about the state after an earlier instruction. -/
  | stateBlock (pc : Nat) (exprs : List StateExpr)
  deriving DecidableEq, Repr

inductive Content where
  | instruction (ins : Instruction) (exprs : List StateExpr)
  | source (note : SourceNote)
  | notice (what : Notice)
  /-- Nothing understood. If the line begins as an instruction, its fault is kept. -/
  | unrecognized (fault : Option BodyFault)
  deriving DecidableEq, Repr

structure LogLine where
  idx : Int
  raw : String
  content : Content
  deriving DecidableEq, Repr

namespace Content

/-- The kinds of lines, as records show them. -/
def label : Content → String
  | .instruction .. => "INSTRUCTION"
  | .source _ => "SOURCE"
  | .notice _ => "KNOWN_MESSAGE"
  | .unrecognized _ => "UNRECOGNIZED"

end Content

/-- The position where a text first occurs in another, counted from `start`. -/
def indexOf? (text : List Char) (start : Nat) : List Char → Option Nat
  | [] => if text.isEmpty then some start else none
  | c :: rest => if text.isPrefixOf (c :: rest) then some start else indexOf? text (start + 1) rest

namespace LogLine

def instruction? (l : LogLine) : Option Instruction :=
  match l.content with
  | .instruction ins _ => some ins
  | _ => none

def isInstruction (l : LogLine) : Bool := l.instruction?.isSome

/-- The facts reported behind the line's instruction. -/
def exprs (l : LogLine) : List StateExpr :=
  match l.content with
  | .instruction _ exprs => exprs
  | _ => []

/-- Why a line that begins as an instruction was not understood; its column is where the text that
did not fit first occurs in the line. -/
def fault? (l : LogLine) : Option Fault :=
  match l.content with
  | .unrecognized (some f) =>
    let column := (indexOf? f.text 0 l.raw.toList).getD 0
    some (f.toFault ⟨l.idx, column⟩)
  | _ => none

end LogLine
end VerifierTrace
