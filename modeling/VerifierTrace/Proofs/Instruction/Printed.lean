import VerifierTrace.Instruction.Reader

/-!
# VerifierTrace.Proofs.Instruction.Printed

Instructions as the verifier prints them.

* `Decimal.Digits`, `Decimal.Numeral`, `Decimal.Offset`: numerals. Leading zeros are allowed, and
  only numerals whose value is asked for have a bound on their length.
* `Operand.Printed`, `Action.Printed`, `Instruction.Printed`: operands, bodies and whole lines. Each
  has a `text`, and a meaning: `form`, `meaning`.
* `Action.Printed.fits`: which bodies an opcode may have.
* `Action.Printed.reads`, `Action.Printed.writes`: the slots that the text names.

White space is single spaces; nothing follows a body.
-/

namespace VerifierTrace

/-- A part of a line in front of the text `after` that ends the line. -/
def Extent.ahead (part after : List Char) : Extent :=
  ⟨-((part.length + after.length : Nat) : Int), part.length⟩

namespace Decimal

/-- One or more decimal digits. -/
structure Digits where
  chars : List Char
  nonempty : chars ≠ []
  decimal : ∀ c ∈ chars, c.isDigit = true

/-- Digits of a number that is read. -/
structure Numeral extends Digits where
  bounded : chars.length ≤ maxDigits

def Numeral.value (n : Numeral) : Nat := Decimal.value n.chars

def signChar (negative : Bool) : Char := if negative then '-' else '+'

structure Offset where
  negative : Bool
  digits : Numeral

namespace Offset

def text (o : Offset) : List Char := signChar o.negative :: o.digits.chars

def value (o : Offset) : Int := if o.negative then -(o.digits.value : Int) else o.digits.value

end Offset
end Decimal

/-- A register is printed as the slot that it is. -/
def Register.text (r : Register) : List Char := r.slot.toList

namespace Operand

structure HexDigits where
  chars : List Char
  nonempty : chars ≠ []
  hexadecimal : ∀ c ∈ chars, isHexDigit c = true

inductive Printed where
  | register (r : Register)
  /-- The lower half of a register, `w0` to `w9`. -/
  | half (n : Fin 10)
  | memory (width : Width) (base : Register) (offset : Decimal.Offset)
  | hex (digits : HexDigits)
  | decimal (negative : Option Bool) (digits : Decimal.Digits)

namespace Printed

def text : Printed → List Char
  | .register r => r.text
  | .half n => ['w', Nat.digitChar n.val]
  | .memory width base offset =>
    "*(".toList ++ width.name.toList ++ " *)(".toList ++ base.text ++ ' ' :: offset.text ++ [')']
  | .hex digits => '0' :: 'x' :: digits.chars
  | .decimal negative digits => (negative.map Decimal.signChar).toList ++ digits.chars

def form : Printed → Form
  | .register r => .register r
  | .half n => .lowerHalf ⟨⟨n.val, by omega⟩⟩
  | .memory width base offset => .memory width base offset.value
  | .hex _ | .decimal .. => .constant

def allowed (choice : Choice) : Printed → Bool
  | .register _ | .half _ => true
  | .memory .. => choice.memory
  | .hex _ | .decimal .. => choice.constant

def operand (o : Printed) (after : List Char) : Operand := ⟨o.form, .ahead o.text after⟩

/-- The register, the stack slot or the memory that the text names. -/
def named : Printed → List Slot
  | .register r => [r.slot]
  | .half n => ["r" ++ toString n.val]
  | .memory _ base offset =>
    if base = Register.framePointer then [Slot.stack offset.value] else [Slot.memory]
  | .hex _ | .decimal .. => []

/-- The register that an address is relative to. -/
def base : Printed → List Slot
  | .memory _ base _ => [base.slot]
  | _ => []

end Printed
end Operand

namespace Action

/-- The target of a jump, `pc+4`. -/
structure Target where
  negative : Bool
  digits : Decimal.Digits

def Target.text (t : Target) : List Char :=
  'p' :: 'c' :: Decimal.signChar t.negative :: t.digits.chars

/-- The target of a call. -/
structure Name where
  chars : List Char
  nonempty : chars ≠ []
  valid : ∀ c ∈ chars, isNameChar c = true

inductive Printed where
  | compute (dst : Operand.Printed) (op : AluOp) (src : Operand.Printed)
  | cast (dst src : Register) (toSpace fromSpace : Decimal.Digits)
  | goto (word : GotoWord) (target : Target)
  | branch (left : Operand.Printed) (op : Comparison) (right : Operand.Printed) (target : Target)
  | call (target : Name)
  | exit

namespace Printed

def behind (symbol : String) (o : Operand.Printed) : List Char :=
  ' ' :: symbol.toList ++ ' ' :: o.text

/-- What stands behind the source of a cast. -/
def castSpaces (toSpace fromSpace : Decimal.Digits) : List Char :=
  ", ".toList ++ toSpace.chars ++ ", ".toList ++ fromSpace.chars ++ ")".toList

/-- What stands behind the destination of a cast. -/
def castFrom (src : Register) (toSpace fromSpace : Decimal.Digits) : List Char :=
  " = addr_space_cast(".toList ++ src.text ++ castSpaces toSpace fromSpace

/-- What stands behind a condition. -/
def gotoTarget (target : Target) : List Char := " goto ".toList ++ target.text

def text : Printed → List Char
  | .compute dst op src => dst.text ++ behind op.symbol src
  | .cast dst src toSpace fromSpace => dst.text ++ castFrom src toSpace fromSpace
  | .goto word target => word.text.toList ++ ' ' :: target.text
  | .branch left op right target =>
    "if ".toList ++ left.text ++ behind op.symbol right ++ gotoTarget target
  | .call target => "call ".toList ++ target.chars
  | .exit => "exit".toList

@[simp] theorem text_compute (dst : Operand.Printed) (op : AluOp) (src : Operand.Printed) :
    (compute dst op src).text = dst.text ++ behind op.symbol src := rfl

@[simp] theorem text_cast (dst src : Register) (toSpace fromSpace : Decimal.Digits) :
    (cast dst src toSpace fromSpace).text = dst.text ++ castFrom src toSpace fromSpace := rfl

@[simp] theorem text_goto (word : GotoWord) (target : Target) :
    (goto word target).text = word.text.toList ++ ' ' :: target.text := rfl

@[simp] theorem text_branch (left : Operand.Printed) (op : Comparison) (right : Operand.Printed)
    (target : Target) : (branch left op right target).text =
      "if ".toList ++ left.text ++ behind op.symbol right ++ gotoTarget target := rfl

@[simp] theorem text_call (target : Name) : (call target).text = "call ".toList ++ target.chars :=
  rfl

@[simp] theorem text_exit : exit.text = "exit".toList := rfl

/-- The action that the text stands for at the end of a line. -/
def meaning : Printed → Action
  | .compute dst op src => .compute op (dst.operand (behind op.symbol src)) (src.operand [])
  | .cast dst src toSpace fromSpace =>
    .cast ((Operand.Printed.register dst).operand (castFrom src toSpace fromSpace))
      ((Operand.Printed.register src).operand (castSpaces toSpace fromSpace))
      (String.ofList toSpace.chars) (String.ofList fromSpace.chars)
  | .goto word target =>
    .goto word (String.ofList target.text) (.ahead (word.text.toList ++ ' ' :: target.text) [])
  | .branch left op right target =>
    .branch (left.operand (behind op.symbol right ++ gotoTarget target)) op
      (right.operand (gotoTarget target)) (String.ofList target.text)
  | .call target =>
    if isPosition target.chars then
      .callSubprogram (String.ofList target.chars) (.ahead ("call ".toList ++ target.chars) [])
    else .callHelper (String.ofList target.chars) (.ahead ("call ".toList ++ target.chars) [])
  | .exit => .exit

@[simp] theorem meaning_call (target : Name) : (call target).meaning =
    if isPosition target.chars then
      .callSubprogram (String.ofList target.chars) (.ahead ("call ".toList ++ target.chars) [])
    else .callHelper (String.ofList target.chars) (.ahead ("call ".toList ++ target.chars) []) :=
  rfl

/-- Whether an instruction with the given opcode may have the body. -/
def fits (opcode : Opcode) : Printed → Bool
  | .compute dst _ src =>
    !opcode.isJump && dst.allowed Operand.Choice.place && src.allowed Operand.Choice.source
  | .cast .. => decide (opcode.opClass = .alu64) && opcode.code == Opcode.mov
  | .goto word _ =>
    opcode.isJump && (opcode.code == 0 || (opcode.code == 14 && word.isOptional))
  | .branch left _ right _ =>
    opcode.isJump && [1, 2, 3, 5, 6, 7, 10, 11, 12, 13].contains opcode.code &&
      left.allowed Operand.Choice.compared && right.allowed Operand.Choice.compared
  | .call _ => opcode.isJump && opcode.code == 8
  | .exit => opcode.isJump && opcode.code == 9

/-- The slots that the text names for reading, in the order of the log's records. -/
def reads : Printed → List Slot
  | .compute dst op src =>
    firstOnes ((if op = .assign then [] else dst.named) ++ src.base ++ dst.base ++ src.named)
  | .cast _ src _ _ => [src.slot]
  | .goto .. | .exit => []
  | .branch left _ right _ => firstOnes (left.named ++ right.named)
  | .call _ => ["r1", "r2", "r3", "r4", "r5"]

/-- The slots that the text names for writing. -/
def writes : Printed → List Slot
  | .compute dst _ _ => dst.named
  | .cast dst _ _ _ => [dst.slot]
  | .goto .. | .branch .. => []
  | .call target =>
    if isPosition target.chars then ["r0", "r6", "r7", "r8", "r9"]
    else ["r0", "r1", "r2", "r3", "r4", "r5"]
  | .exit => ["r0", "r1", "r2", "r3", "r4", "r5", "r6", "r7", "r8", "r9"]

/-- The parts of the text whose places are kept. -/
def parts : Printed → List (List Char)
  | .compute dst _ src => [dst.text, src.text]
  | .cast dst src _ _ => [dst.text, src.text]
  | .goto word target => [word.text.toList ++ ' ' :: target.text]
  | .branch left _ right _ => [left.text, right.text]
  | .call target => ["call ".toList ++ target.chars]
  | .exit => []

end Printed

/-- The places that an action keeps. -/
def extents : Action → List Extent
  | .compute _ dst src => [dst.extent, src.extent]
  | .cast dst src _ _ => [dst.extent, src.extent]
  | .goto _ _ extent => [extent]
  | .branch left _ right _ => [left.extent, right.extent]
  | .callHelper _ extent | .callSubprogram _ extent => [extent]
  | .exit => []

end Action

/-- A line with an instruction: its number, its opcode byte in two hexadecimal digits, its body. -/
structure Instruction.Printed where
  pc : Decimal.Numeral
  opClass : OpClass
  code : Fin 16
  source : OpSource
  body : Action.Printed
  fits : body.fits ⟨opClass, code, source⟩ = true

namespace Instruction.Printed

def opcode (i : Printed) : Opcode := ⟨i.opClass, i.code, i.source⟩

/-- The low half of the opcode byte. -/
def lowHalf (opClass : OpClass) (source : OpSource) : Nat :=
  opClass.number + match source with
    | .constant => 0
    | .register => 8

def text (i : Printed) : List Char :=
  i.pc.chars ++ ": (".toList ++ Nat.digitChar i.code ::
    Nat.digitChar (lowHalf i.opClass i.source) :: ") ".toList ++ i.body.text

def line (i : Printed) : String := String.ofList i.text

def meaning (i : Printed) : Instruction := ⟨i.opcode, some i.pc.value, i.body.meaning⟩

end Instruction.Printed
end VerifierTrace
