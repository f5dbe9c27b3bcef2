import VerifierTrace.Extent
import VerifierTrace.Slot

/-!
# VerifierTrace.Operand

Operands of instructions: registers, their lower halves, memory behind a register, constants.

An operand knows the slot that it stands for. Memory behind the frame pointer `r10` is the stack
slot at its offset; memory behind any other register is the one slot `MEM`, so data flow through
maps and packets is not told apart. Constants are not kept, since nothing depends on them.
-/

namespace VerifierTrace

/-- One of the registers `r0` to `r10`. -/
structure Register where
  index : Fin 11
  deriving DecidableEq, Repr

namespace Register

def slot (r : Register) : Slot := "r" ++ toString r.index.val

def framePointer : Register := ⟨10⟩
def result : Register := ⟨0⟩
def context : Register := ⟨1⟩

/-- The registers that pass arguments; a call leaves them without a value. -/
def scratch : List Register := [⟨1⟩, ⟨2⟩, ⟨3⟩, ⟨4⟩, ⟨5⟩]

/-- The registers whose values a called function gives back. -/
def preserved : List Register := [⟨6⟩, ⟨7⟩, ⟨8⟩, ⟨9⟩]

def general : List Register := result :: scratch ++ preserved

/-- The register with a decimal digit as its number. -/
def ofDigit (c : Char) : Register := ⟨Fin.ofNat 11 (c.toNat - '0'.toNat)⟩

end Register

inductive Width where
  | u8
  | u16
  | u32
  | u64
  deriving DecidableEq, Repr

namespace Width

def bytes : Width → Nat
  | .u8 => 1
  | .u16 => 2
  | .u32 => 4
  | .u64 => 8

def name : Width → String
  | .u8 => "u8"
  | .u16 => "u16"
  | .u32 => "u32"
  | .u64 => "u64"

end Width

inductive Operand.Form where
  /-- A register in full, `r3`. -/
  | register (r : Register)
  /-- The lower half of a register, `w3`. -/
  | lowerHalf (r : Register)
  /-- Memory, `*(u64 *)(r1 +8)`. -/
  | memory (width : Width) (base : Register) (offset : Int)
  | constant
  deriving DecidableEq, Repr

/-- An operand and the place of its text in the line. -/
structure Operand where
  form : Operand.Form
  extent : Extent
  deriving DecidableEq, Repr

namespace Operand
namespace Form

/-- The kinds of operands, as records show them. -/
def label : Form → String
  | .register _ | .lowerHalf _ => "REG"
  | .memory _ base _ => if base = Register.framePointer then "FP" else "MEM"
  | .constant => "IMM"

def slot : Form → Slot
  | .register r | .lowerHalf r => r.slot
  | .memory _ base offset =>
    if base = Register.framePointer then Slot.stack offset else Slot.memory
  | .constant => Slot.constant

/-- The size of the operand in bytes. -/
def size : Form → Nat
  | .register _ => 8
  | .lowerHalf _ => 4
  | .memory width _ _ => width.bytes
  | .constant => 8

def address? : Form → Option (Register × Int)
  | .memory _ base offset => some (base, offset)
  | _ => none

/-- The base register and the offset of memory that is not on the stack of the frame at hand. -/
def pointer? (f : Form) : Option (Register × Int) :=
  f.address?.filter fun a => a.1 ≠ Register.framePointer

def isConstant : Form → Bool
  | .constant => true
  | _ => false

end Form

def slot (o : Operand) : Slot := o.form.slot

end Operand
end VerifierTrace
