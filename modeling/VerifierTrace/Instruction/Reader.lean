import VerifierTrace.Diagnostic
import VerifierTrace.Instruction.Basic
import VerifierTrace.Text.Blank

/-!
# VerifierTrace.Instruction.Reader

The bodies of instructions, as text. The opcode decides which body is expected:

* `dst op src` for all classes that do not jump, and `rX = addr_space_cast(rY, n, m)` besides for
  the 64-bit move;
* `goto pc+n` in four spellings, `if a cmp b goto pc+n`, `call f` and `exit` for the jump classes,
  by operation.

Every reader takes the text that is left of the line and gives the text after what it read, so an
operand's place in the line follows from the two lengths. A body that does not fit is a `BodyFault`,
which carries the text at which reading stopped.
-/

namespace VerifierTrace

/-- What was expected where the body of an instruction did not fit. -/
inductive BodyFault.Cause where
  | operand
  | operator
  | goto
  | condition
  /-- The target of a conditional jump; the text after its operands is kept. -/
  | target (rest : List Char)
  | call
  | exit
  /-- The operation has no form at all. -/
  | jumpCode (code : Nat)
  deriving DecidableEq, Repr

structure BodyFault where
  cause : BodyFault.Cause
  text : List Char
  deriving DecidableEq, Repr

namespace BodyFault

/-- The first characters of a text in quotes. -/
def sample (n : Nat) (cs : List Char) : String := Text.quote (String.ofList (cs.take n))

/-- A hexadecimal digit behind `0x`. -/
def hexText (n : Nat) : String := "0x" ++ String.ofList (Nat.toDigits 16 n)

def message (f : BodyFault) : String :=
  match f.cause with
  | .operand => "unrecognized operand: " ++ sample 24 f.text
  | .operator => "unrecognized operator: " ++ sample 8 f.text
  | .goto => "expected goto: " ++ sample 24 f.text
  | .condition => "expected 'if': " ++ sample 24 f.text
  | .target rest => "missing jump target: " ++ sample 24 rest
  | .call => "expected call: " ++ sample 24 f.text
  | .exit => "expected exit: " ++ sample 24 f.text
  | .jumpCode code => "no grammar for jump code " ++ hexText code

def kind (f : BodyFault) : Fault.Kind :=
  match f.cause with
  | .operand => .operand
  | _ => .instruction

def code (f : BodyFault) : Code :=
  match f.cause with
  | .operand => .unknownOperand
  | .operator => .unknownOperator
  | .goto | .target _ => .missingJumpTarget
  | .condition | .call | .exit => .malformedBody
  | .jumpCode _ => .unsupportedOpcode

def toFault (f : BodyFault) (span : Span) : Fault where
  kind := f.kind
  message := f.message
  code := f.code
  span := span
  subject := String.ofList f.text

end BodyFault

/-- Why an instruction could not be read: its body does not fit, or it holds a numeral that is too
long. -/
inductive Refusal where
  | body (fault : BodyFault)
  | numeral (fault : NumeralFault)
  deriving DecidableEq, Repr

namespace Register

def read? : List Char → Option (Register × List Char)
  | 'r' :: '1' :: '0' :: rest => some (framePointer, rest)
  | 'r' :: d :: rest => if d.isDigit then some (ofDigit d, rest) else none
  | _ => none

end Register

namespace Width

/-- The width `u8`, `u16`, `u32` or `u64` at the front of a text. -/
def read? : List Char → Option (Width × List Char)
  | 'u' :: '8' :: rest => some (.u8, rest)
  | 'u' :: '1' :: '6' :: rest => some (.u16, rest)
  | 'u' :: '3' :: '2' :: rest => some (.u32, rest)
  | 'u' :: '6' :: '4' :: rest => some (.u64, rest)
  | _ => none

end Width

namespace Operand

/-- A register, in full or its lower half, at the front of a text. -/
def Form.register? : List Char → Option (Form × List Char)
  | 'w' :: d :: rest => if d.isDigit then some (.lowerHalf (.ofDigit d), rest) else none
  | cs => (Register.read? cs).map fun (r, rest) => (.register r, rest)

/-- A sign that must be there, as `true` for a minus, and the text after it. -/
def sign? : List Char → Option (Bool × List Char)
  | '-' :: rest => some (true, rest)
  | '+' :: rest => some (false, rest)
  | _ => none

/-- Memory as it is spelled: width, base register, sign and digits of the offset. -/
structure MemorySpelling where
  width : Width
  base : Register
  negative : Bool
  digits : List Char
  deriving DecidableEq, Repr

/-- `*(u64 *)(r1 +8)` at the front of a text, and the text after it. -/
def memory? (cs : List Char) : Option (MemorySpelling × List Char) := do
  let cs ← "*(".toList.isPrefixOf? cs
  let (width, cs) ← Width.read? cs
  let cs ← " *)(".toList.isPrefixOf? cs
  let (base, cs) ← Register.read? cs
  let cs ← " ".toList.isPrefixOf? cs
  let (negative, cs) ← sign? cs
  let (digits, cs) ← Decimal.run? cs
  let cs ← ")".toList.isPrefixOf? cs
  return (⟨width, base, negative, digits⟩, cs)

/-- Hexadecimal digits with small letters. -/
def isHexDigit (c : Char) : Bool := c.isDigit || ('a' ≤ c && c ≤ 'f')

/-- A decimal constant, with or without a sign; the text after it. -/
def decimal? (cs : List Char) : Option (List Char) :=
  match cs with
  | '-' :: rest => (Decimal.run? rest).map Prod.snd
  | '+' :: rest => (Decimal.run? rest).map Prod.snd
  | _ => (Decimal.run? cs).map Prod.snd

def constant? (cs : List Char) : Option (List Char) :=
  match cs with
  | '0' :: 'x' :: d :: rest =>
    if isHexDigit d then some (rest.dropWhile isHexDigit) else decimal? cs
  | _ => decimal? cs

/-- Which operands may stand at a place, besides registers. -/
structure Choice where
  memory : Bool
  constant : Bool
  deriving DecidableEq, Repr

/-- Where a value goes to. -/
def Choice.place : Choice := ⟨true, false⟩

/-- Where a value comes from. -/
def Choice.source : Choice := ⟨true, true⟩

def Choice.compared : Choice := ⟨false, true⟩

/-- An operand at the front of a text; `none` if there is none of the given choice. -/
def Form.read (choice : Choice) (cs : List Char) :
    Except NumeralFault (Option (Form × List Char)) :=
  match Form.register? cs with
  | some found => .ok (some found)
  | none =>
    match if choice.memory then memory? cs else none with
    | some (m, rest) =>
      match Decimal.readSigned m.negative m.digits with
      | .error e => .error e
      | .ok offset => .ok (some (.memory m.width m.base offset, rest))
    | none =>
      if choice.constant then .ok ((constant? cs).map fun rest => (.constant, rest)) else .ok none

def read (choice : Choice) (cs : List Char) : Except Refusal (Operand × List Char) :=
  match Form.read choice cs with
  | .error e => .error (.numeral e)
  | .ok none => .error (.body ⟨.operand, cs⟩)
  | .ok (some (form, rest)) => .ok (⟨form, .between cs rest⟩, rest)

end Operand

/-- The first member of a list whose symbol stands at the front of a text. -/
def readSymbol? {α : Type} (symbol : α → String) (all : List α) (cs : List Char) :
    Option (α × List Char) :=
  all.findSome? fun a => ((symbol a).toList.isPrefixOf? cs).map fun rest => (a, rest)

/-- An operator and the text after it, less white space. -/
def readOperator {α : Type} (symbol : α → String) (all : List α) (cs : List Char) :
    Except Refusal (α × List Char) :=
  match readSymbol? symbol all cs with
  | some (a, rest) => .ok (a, Text.skipBlanks rest)
  | none => .error (.body ⟨.operator, cs⟩)

namespace Action

/-- A relative position `pc+4` at the front of a text. -/
def position? (cs : List Char) : Option (List Char × List Char) :=
  match cs with
  | 'p' :: 'c' :: sign :: rest =>
    if sign = '+' ∨ sign = '-' then
      (Decimal.run? rest).map fun (digits, more) => ('p' :: 'c' :: sign :: digits, more)
    else none
  | _ => none

/-- `rX = addr_space_cast(rY, n, m)`. -/
def cast? (cs : List Char) : Option (Action × List Char) := do
  let (dst, afterDst) ← Register.read? cs
  let beforeSrc ← " = addr_space_cast(".toList.isPrefixOf? afterDst
  let (src, afterSrc) ← Register.read? beforeSrc
  let rest ← ", ".toList.isPrefixOf? afterSrc
  let (toSpace, rest) ← Decimal.run? rest
  let rest ← ", ".toList.isPrefixOf? rest
  let (fromSpace, rest) ← Decimal.run? rest
  let rest ← ")".toList.isPrefixOf? rest
  return (.cast ⟨.register dst, .between cs afterDst⟩ ⟨.register src, .between beforeSrc afterSrc⟩
    (String.ofList toSpace) (String.ofList fromSpace), rest)

/-- `dst op src`. -/
def readCompute (cs : List Char) : Except Refusal (Action × List Char) := do
  let (dst, rest) ← Operand.read .place cs
  let (op, rest) ← readOperator AluOp.symbol AluOp.all (Text.skipBlanks rest)
  let (src, rest) ← Operand.read .source rest
  return (.compute op dst src, Text.skipBlanks rest)

/-- The body of an instruction that does not jump. A cast leaves the white space behind it
unread. -/
def readAlu (opcode : Opcode) (cs : List Char) : Except Refusal (Action × List Char) :=
  match if opcode.opClass = .alu64 ∧ opcode.code = Opcode.mov then cast? cs else none with
  | some found => .ok found
  | none => readCompute cs

/-- A keyword, one space, and a position. -/
def goto? (cs : List Char) : Option (GotoWord × List Char × List Char) := do
  let (word, rest) ← readSymbol? GotoWord.text GotoWord.all cs
  let rest ← " ".toList.isPrefixOf? rest
  let (target, rest) ← position? rest
  return (word, target, rest)

/-- A jump without a condition, of the keywords that are allowed. -/
def readGoto (allowed : GotoWord → Bool) (cs : List Char) :
    Except Refusal (Action × List Char) :=
  match goto? cs with
  | some (word, target, rest) =>
    if allowed word then
      .ok (.goto word (String.ofList target) (.between cs rest), Text.skipBlanks rest)
    else .error (.body ⟨.goto, cs⟩)
  | none => .error (.body ⟨.goto, cs⟩)

/-- `goto pc+n` behind a condition. -/
def target? (cs : List Char) : Option (List Char × List Char) := do
  let rest ← "goto ".toList.isPrefixOf? cs
  position? rest

/-- `if left op right goto target`. -/
def readBranch (cs : List Char) : Except Refusal (Action × List Char) :=
  match "if ".toList.isPrefixOf? cs with
  | none => .error (.body ⟨.condition, cs⟩)
  | some rest => do
    let (left, rest) ← Operand.read .compared rest
    let (op, rest) ← readOperator Comparison.symbol Comparison.all (Text.skipBlanks rest)
    let (right, rest) ← Operand.read .compared rest
    match target? (Text.skipBlanks rest) with
    | none => .error (.body ⟨.target rest, cs⟩)
    | some (target, rest) =>
      .ok (.branch left op right (String.ofList target), Text.skipBlanks rest)

def isNameChar (c : Char) : Bool :=
  c.isDigit || ('a' ≤ c && c ≤ 'z') || ('A' ≤ c && c ≤ 'Z') || c = '_' || c = '#' || c = '+' ||
    c = '-'

def isPosition (target : List Char) : Bool :=
  ['p', 'c', '+'].isPrefixOf target || ['p', 'c', '-'].isPrefixOf target

def readCall (cs : List Char) : Except Refusal (Action × List Char) :=
  match "call ".toList.isPrefixOf? cs with
  | none => .error (.body ⟨.call, cs⟩)
  | some rest =>
    let target := rest.takeWhile isNameChar
    let after := rest.dropWhile isNameChar
    if target.isEmpty then .error (.body ⟨.call, cs⟩)
    else
      let action := if isPosition target then callSubprogram else callHelper
      .ok (action (String.ofList target) (.between cs after), Text.skipBlanks after)

def readExit (cs : List Char) : Except Refusal (Action × List Char) :=
  match "exit".toList.isPrefixOf? cs with
  | none => .error (.body ⟨.exit, cs⟩)
  | some rest => .ok (.exit, Text.skipBlanks rest)

inductive JumpForm where
  | goto (allowed : GotoWord → Bool)
  | call
  | exit
  | branch

/-- The form of a jump by its operation: `JA`, `CALL`, `EXIT`, `JCOND`, or one of the ten
comparisons. The operations 4 (`JSET`) and 15 have none. -/
def jumpForm? : Nat → Option JumpForm
  | 0 => some (.goto fun _ => true)
  | 8 => some .call
  | 9 => some .exit
  | 14 => some (.goto GotoWord.isOptional)
  | code => if [1, 2, 3, 5, 6, 7, 10, 11, 12, 13].contains code then some .branch else none

def readJump (code : Nat) (cs : List Char) : Except Refusal (Action × List Char) :=
  match jumpForm? code with
  | some (.goto allowed) => readGoto allowed cs
  | some .call => readCall cs
  | some .exit => readExit cs
  | some .branch => readBranch cs
  | none => .error (.body ⟨.jumpCode code, cs⟩)

def read (opcode : Opcode) (cs : List Char) : Except Refusal (Action × List Char) :=
  if opcode.isJump then readJump opcode.code cs else readAlu opcode cs

end Action
end VerifierTrace
