import VerifierTrace.Numeral.Spelling

/-!
# VerifierTrace.Opcode

The opcode byte of an instruction, split into its fields:

```
  bit  7 6 5 4 |   3    | 2 1 0
       code    | source | class
```

The classes fall into two families: six whose instructions move or compute a value, and the two
jump classes.
-/

namespace VerifierTrace

/-- Instruction classes in the order of their numbers, 0 to 7. -/
inductive OpClass where
  | ld
  | ldx
  | st
  | stx
  | alu
  | jmp
  | jmp32
  | alu64
  deriving DecidableEq, Repr

namespace OpClass

def name : OpClass → String
  | .ld => "LD"
  | .ldx => "LDX"
  | .st => "ST"
  | .stx => "STX"
  | .alu => "ALU"
  | .jmp => "JMP"
  | .jmp32 => "JMP32"
  | .alu64 => "ALU64"

def number : OpClass → Nat
  | .ld => 0
  | .ldx => 1
  | .st => 2
  | .stx => 3
  | .alu => 4
  | .jmp => 5
  | .jmp32 => 6
  | .alu64 => 7

/-- The class with a number; numbers beyond 7 do not occur and give the last class. -/
def ofNumber : Nat → OpClass
  | 0 => .ld
  | 1 => .ldx
  | 2 => .st
  | 3 => .stx
  | 4 => .alu
  | 5 => .jmp
  | 6 => .jmp32
  | _ => .alu64

def isAlu : OpClass → Bool
  | .ld | .ldx | .st | .stx | .alu | .alu64 => true
  | _ => false

def isJump : OpClass → Bool
  | .jmp | .jmp32 => true
  | _ => false

theorem number_lt (c : OpClass) : c.number < 8 := by cases c <;> decide

theorem ofNumber_number (c : OpClass) : ofNumber c.number = c := by cases c <;> rfl

theorem number_ofNumber {n : Nat} (h : n < 8) : (ofNumber n).number = n := by
  have hall : ∀ i < 8, (ofNumber i).number = i := by decide
  exact hall n h

end OpClass

inductive OpSource where
  /-- A constant in the instruction, `K`. -/
  | constant
  /-- A register, `X`. -/
  | register
  deriving DecidableEq, Repr

namespace OpSource

def name : OpSource → String
  | .constant => "K"
  | .register => "X"

end OpSource

structure Opcode where
  opClass : OpClass
  /-- The operation within the class, below 16. -/
  code : Nat
  source : OpSource
  deriving DecidableEq, Repr

namespace Opcode

/-- The operation that copies a value, in the arithmetic classes. -/
def mov : Nat := 11

/-- Decodes the low byte of a number of any size; a negative number counts as its two's
complement. -/
def ofInt (v : Int) : Opcode where
  opClass := .ofNumber (v % 8).toNat
  code := (v / 16 % 16).toNat
  source := if v / 8 % 2 = 1 then .register else .constant

def isAlu (o : Opcode) : Bool := o.opClass.isAlu

def isJump (o : Opcode) : Bool := o.opClass.isJump

/-- Decodes a hexadecimal numeral; `none` if the text is none. -/
def ofHex? (text : List Char) : Option Opcode := (Numeral.hex? text).map ofInt

end Opcode
end VerifierTrace
