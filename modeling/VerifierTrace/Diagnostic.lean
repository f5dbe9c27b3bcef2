import VerifierTrace.Numeral.Decimal
import VerifierTrace.Text.Quoted

/-!
# VerifierTrace.Diagnostic

Faults with a code and a place in the log.

* `Code`: a numbered kind of fault, written `VLOG-1001`. Its hundreds tell the phase in which it
  arises. Two codes are the same if they agree on series and number.
* `Span`: a line and a column; a negative line is no place at all.
* `Fault`: what went wrong, of which kind, where, and in which text. Every `Fault.Kind` has a code
  that stands in when none is given.
-/

namespace VerifierTrace

/-- The parts of the work in which faults arise. -/
inductive Phase where
  | parse
  | simulation
  | query
  | config
  | internal
  deriving DecidableEq, Repr

namespace Phase

def label : Phase → String
  | .parse => "parse"
  | .simulation => "simulation"
  | .query => "query"
  | .config => "config"
  | .internal => "internal"

def tag : Phase → String
  | .parse => "PARSE"
  | .simulation => "SIMULATION"
  | .query => "QUERY"
  | .config => "CONFIG"
  | .internal => "INTERNAL"

end Phase

structure Code where
  number : Int
  phase : Phase
  summary : String := ""
  series : String := "VLOG"
  deriving DecidableEq, Repr

namespace Code

/-- The series, a hyphen, and the number in at least four characters. -/
def text (c : Code) : String := c.series ++ "-" ++ Decimal.padded 4 c.number

/-- The text of the code in quotes, and its phase. -/
def display (c : Code) : String := "ErrorCode(" ++ Text.quote c.text ++ ", " ++ c.phase.tag ++ ")"

/-- Codes are told apart by series and number alone. -/
def same (c d : Code) : Bool := c.series == d.series && c.number == d.number

def isSpelled (c : Code) (s : String) : Bool := c.text == s

def unrecognizedLine : Code := ⟨1000, .parse, "line matches no production", "VLOG"⟩
def unknownOperand : Code := ⟨1001, .parse, "operand not recognized", "VLOG"⟩
def unknownOperator : Code := ⟨1002, .parse, "operator not recognized", "VLOG"⟩
def missingJumpTarget : Code := ⟨1003, .parse, "jump target missing", "VLOG"⟩
def unsupportedOpcode : Code := ⟨1004, .parse, "opcode has no sub-grammar", "VLOG"⟩
def malformedBody : Code := ⟨1005, .parse, "instruction body malformed", "VLOG"⟩
def unbalancedExit : Code := ⟨2000, .simulation, "exit with empty call stack", "VLOG"⟩
def lineOutOfRange : Code := ⟨3000, .query, "line index out of range", "VLOG"⟩
def emptySlotId : Code := ⟨3001, .query, "empty storage-location id", "VLOG"⟩
def unknownConfigKey : Code := ⟨4000, .config, "unknown configuration key", "VLOG"⟩
def invalidConfigValue : Code := ⟨4001, .config, "invalid configuration value", "VLOG"⟩
def unreadableConfig : Code := ⟨4002, .config, "configuration file unreadable", "VLOG"⟩
def internalError : Code := ⟨9000, .internal, "internal error", "VLOG"⟩

end Code

structure Span where
  line : Int := -1
  column : Int := 0
  deriving DecidableEq, Repr

namespace Span

def isPlace (s : Span) : Bool := 0 ≤ s.line

def text (s : Span) : String :=
  if s.isPlace then "line " ++ toString s.line ++ ":" ++ toString s.column else "<log>"

end Span

namespace Fault

/-- Kinds of faults. Reading a line can fail in general, at an operand, or in the body of an
instruction. -/
inductive Kind where
  | general
  | line
  | operand
  | instruction
  | config
  | query
  deriving DecidableEq, Repr

namespace Kind

/-- The code of a fault that is given none. -/
def code : Kind → Code
  | .general => .internalError
  | .line => .unrecognizedLine
  | .operand => .unknownOperand
  | .instruction => .malformedBody
  | .config => .invalidConfigValue
  | .query => .lineOutOfRange

/-- The kind and the more general ones that it belongs to, up to `general`. -/
def ancestry : Kind → List Kind
  | .general => [.general]
  | .line => [.line, .general]
  | .operand => [.operand, .line, .general]
  | .instruction => [.instruction, .line, .general]
  | .config => [.config, .general]
  | .query => [.query, .general]

/-- Whether faults of the kind carry the text that was not understood. -/
def carriesText (k : Kind) : Bool := k.ancestry.contains .line

end Kind

end Fault

structure Fault where
  kind : Fault.Kind
  message : String
  code : Code := kind.code
  span : Span := {}
  /-- The text that was not understood; empty for kinds that carry none. -/
  subject : String := ""
  deriving DecidableEq, Repr

namespace Fault

/-- The code in brackets, the message, and the place if there is one. -/
def text (f : Fault) : String :=
  "[" ++ f.code.text ++ "] " ++ f.message ++
    if f.span.isPlace then " (" ++ f.span.text ++ ")" else ""

end Fault
end VerifierTrace
