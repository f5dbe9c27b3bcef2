import VerifierTrace.Opcode
import VerifierTrace.Operand

/-!
# VerifierTrace.Instruction.Basic

Instructions of a verifier log: what they are, and which slots they read and write.

`Instruction.reads` and `Instruction.writes` are the whole interface to the rest of the library: the
machine and the tracing of values know an instruction by them, by whether it is a call or an exit,
and by the pointers behind which it loads and stores.
-/

namespace VerifierTrace

/-- Operators between destination and source. -/
inductive AluOp where
  | assign
  | add
  | sub
  | mul
  | div
  | mod
  | and
  | or
  | xor
  | shiftLeft
  | shiftRight
  | signedShiftLeft
  | signedShiftRight
  deriving DecidableEq, Repr

namespace AluOp

def symbol : AluOp → String
  | .assign => "="
  | .add => "+="
  | .sub => "-="
  | .mul => "*="
  | .div => "/="
  | .mod => "%="
  | .and => "&="
  | .or => "|="
  | .xor => "^="
  | .shiftLeft => "<<="
  | .shiftRight => ">>="
  | .signedShiftLeft => "s<<="
  | .signedShiftRight => "s>>="

/-- All operators, those with longer symbols first. -/
def all : List AluOp :=
  [.signedShiftRight, .signedShiftLeft, .shiftLeft, .shiftRight, .add, .sub, .mul, .div, .mod,
   .and, .or, .xor, .assign]

end AluOp

inductive Comparison where
  | eq
  | ne
  | lt
  | le
  | gt
  | ge
  | signedLt
  | signedLe
  | signedGt
  | signedGe
  deriving DecidableEq, Repr

namespace Comparison

def symbol : Comparison → String
  | .eq => "=="
  | .ne => "!="
  | .lt => "<"
  | .le => "<="
  | .gt => ">"
  | .ge => ">="
  | .signedLt => "s<"
  | .signedLe => "s<="
  | .signedGt => "s>"
  | .signedGe => "s>="

/-- All comparisons, in an order in which none comes after one that its symbol starts with. -/
def all : List Comparison :=
  [.signedGe, .signedLe, .eq, .ne, .le, .ge, .signedLt, .signedGt, .lt, .gt]

end Comparison

/-- Keywords of jumps without a condition. -/
inductive GotoWord where
  | goto
  | gotol
  | mayGoto
  | gotoOrNop
  deriving DecidableEq, Repr

namespace GotoWord

def text : GotoWord → String
  | .goto => "goto"
  | .gotol => "gotol"
  | .mayGoto => "may_goto"
  | .gotoOrNop => "goto_or_nop"

/-- All keywords, in an order in which none comes after one that it starts with. -/
def all : List GotoWord := [.gotoOrNop, .mayGoto, .gotol, .goto]

/-- What the verifier decides about the jump. -/
def label : GotoWord → String
  | .goto | .gotol => "UNCONDITIONAL_GOTO"
  | .mayGoto => "MAY_GOTO"
  | .gotoOrNop => "GOTO_OR_NOP"

/-- Whether the jump may be left out, as the jumps of the opcode `JCOND` are. -/
def isOptional : GotoWord → Bool
  | .mayGoto | .gotoOrNop => true
  | .goto | .gotol => false

end GotoWord

inductive Action where
  /-- `dst op src`: arithmetic, load or store. -/
  | compute (op : AluOp) (dst src : Operand)
  /-- `dst = addr_space_cast(src, to, from)`; the address spaces are kept as they are printed. -/
  | cast (dst src : Operand) (toSpace fromSpace : String)
  | exit
  | goto (word : GotoWord) (target : String) (extent : Extent)
  /-- `if left op right goto target`. -/
  | branch (left : Operand) (op : Comparison) (right : Operand) (target : String)
  /-- A call of a helper, of a kernel function or of a global function. -/
  | callHelper (target : String) (extent : Extent)
  /-- A call that enters a new frame. -/
  | callSubprogram (target : String) (extent : Extent)
  deriving DecidableEq, Repr

/-- An instruction: its opcode, its number in the program if known, and what it does. -/
structure Instruction where
  opcode : Opcode
  pc : Option Nat
  action : Action
  deriving DecidableEq, Repr

/-- A list without repetitions; of equal members the first stays. -/
def firstOnes {α : Type} [DecidableEq α] : List α → List α
  | [] => []
  | a :: rest => a :: (firstOnes rest).filter fun b => decide (b ≠ a)

namespace Action

/-- Slots that `dst op src` reads: the destination unless the operator is an assignment, the base
registers of both sides, and the source unless it is a constant. -/
def computeReads (op : AluOp) (dst src : Operand.Form) : List Slot :=
  firstOnes <|
    (if op = .assign then [] else [dst.slot]) ++
    (src.address?.toList.map fun a => a.1.slot) ++
    (dst.address?.toList.map fun a => a.1.slot) ++
    (if src.isConstant then [] else [src.slot])

def reads : Action → List Slot
  | .compute op dst src => computeReads op dst.form src.form
  | .cast _ src _ _ => [src.slot]
  | .exit => []
  | .goto .. => []
  | .branch left _ right _ =>
    firstOnes (([left, right].filter fun o => !o.form.isConstant).map Operand.slot)
  | .callHelper .. | .callSubprogram .. => Register.scratch.map Register.slot

def writes : Action → List Slot
  | .compute _ dst _ => [dst.slot]
  | .cast dst _ _ _ => [dst.slot]
  | .exit => Register.general.map Register.slot
  | .goto .. => []
  | .branch .. => []
  | .callHelper .. => (Register.result :: Register.scratch).map Register.slot
  | .callSubprogram .. => (Register.result :: Register.preserved).map Register.slot

/-- The place of the instruction's text, kept for jumps and calls. -/
def extent? : Action → Option Extent
  | .goto _ _ e | .callHelper _ e | .callSubprogram _ e => some e
  | _ => none

/-- Whether the action may leave the sequence of instructions. -/
def isJump : Action → Bool
  | .compute .. | .cast .. => false
  | _ => true

/-- The kind of instruction, in three kinds. -/
def label : Action → String
  | .compute .. => "ALU"
  | .cast .. => "ADDR_SPACE_CAST"
  | _ => "JMP"

/-- The kind of instruction with the jumps told apart. -/
def fineLabel : Action → String
  | .compute .. => "ALU"
  | .cast .. => "ADDR_SPACE_CAST"
  | .exit => "EXIT"
  | .goto word _ _ => word.label
  | .branch .. => "CONDITIONAL_GOTO"
  | .callHelper .. => "HELPER_CALL"
  | .callSubprogram .. => "SUBPROGRAM_CALL"

end Action

namespace Instruction

def reads (i : Instruction) : List Slot := i.action.reads

def writes (i : Instruction) : List Slot := i.action.writes

/-- The slot that the instruction copies its value from: the only one it reads. -/
def soleRead? (i : Instruction) : Option Slot :=
  match i.reads with
  | [slot] => some slot
  | _ => none

end Instruction
end VerifierTrace
