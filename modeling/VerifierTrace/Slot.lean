import VerifierTrace.Numeral.Decimal
import VerifierTrace.Text.Lower

/-!
# VerifierTrace.Slot

The names of storage locations.

A location is named by a text: a register `r0` to `r10`, a stack slot `fp-8` of the frame at hand,
a stack slot `fp[1]-8` of frame 1 seen from another frame, `MEM` for all memory behind other
pointers, and whatever else the verifier reports a value for. The slot at offset zero is spelled
`fp-0`, never `fp0`.

* `Slot.ofFrame`: the name of a stack slot as seen from a frame.
* `Slot.location`: reads such a name back.
* `Slot.ofKey`: the name that a key printed by the verifier stands for.
-/

namespace VerifierTrace

/-- The name of a storage location. -/
abbrev Slot := String

namespace Slot

/-- All memory that is reached through a register other than the frame pointer. -/
def memory : Slot := "MEM"

/-- What stands for a constant where a slot is asked for; no slot has this name. -/
def constant : Slot := "IMM"

/-- The base of the stack of the frame at hand. -/
def base : Slot := "fp-0"

/-- The stack slot at an offset from the frame pointer. -/
def stack (offset : Int) : Slot := if offset = 0 then base else "fp" ++ toString offset

/-- What follows `fp` in the name of a stack slot. -/
def stackSuffix (offset : Int) : String := if offset = 0 then "-0" else toString offset

/-- The stack slot at an offset of frame `owner`, as seen from frame `viewer`. -/
def ofFrame (owner : Int) (offset : Int) (viewer : Int) : Slot :=
  if owner = viewer then stack offset
  else "fp[" ++ toString owner ++ "]" ++ stackSuffix offset

/-- The one spelling of the stack base. -/
def canonical (name : String) : Slot := if name = "fp0" then base else name

/-- A key without the mark `_w` of a value that was just written. -/
def dropWritten (key : List Char) : List Char :=
  if ['_', 'w'].isSuffixOf key then key.take (key.length - 2) else key

/-- The slot that a printed key names: `R2_w` is `r2`. -/
def ofKey (key : String) : Slot :=
  canonical (String.ofList (Text.lower (dropWritten key.toList)))

/-- The spelling of a stack slot: the digits of its frame if it has any, its sign, its digits. -/
structure Spelling where
  frame : Option (List Char)
  negative : Bool
  digits : List Char
  deriving DecidableEq, Repr

namespace Spelling

/-- `[1]` and the text after it. -/
def frame? : List Char → Option (List Char × List Char)
  | '[' :: rest =>
    match Decimal.run? rest with
    | some (digits, ']' :: more) => some (digits, more)
    | _ => none
  | _ => none

def minus : List Char → Bool × List Char
  | '-' :: rest => (true, rest)
  | cs => (false, cs)

/-- The spelling of an offset that makes up the text; a line feed may follow it. -/
def ofOffset? (frame : Option (List Char)) (cs : List Char) : Option Spelling :=
  let (negative, body) := minus cs
  match Decimal.run? body with
  | some (digits, rest) =>
    if rest = [] ∨ rest = ['\n'] then some ⟨frame, negative, digits⟩ else none
  | none => none

def ofText? : List Char → Option Spelling
  | 'f' :: 'p' :: rest =>
    match frame? rest with
    | some (digits, more) => ofOffset? (some digits) more
    | none => ofOffset? none rest
  | _ => none

end Spelling

/-- A stack slot: the frame that owns it, or `none` for the frame at hand, and the offset. -/
structure Location where
  frame : Option Nat
  offset : Int
  deriving DecidableEq, Repr

/-- The stack slot that a text names, if any. -/
def location (name : String) : Except NumeralFault (Option Location) :=
  match Spelling.ofText? name.toList with
  | none => .ok none
  | some s =>
    match s.frame with
    | none =>
      match Decimal.readSigned s.negative s.digits with
      | .error e => .error e
      | .ok offset => .ok (some ⟨none, offset⟩)
    | some digits =>
      match Decimal.read digits with
      | .error e => .error e
      | .ok frame =>
        match Decimal.readSigned s.negative s.digits with
        | .error e => .error e
        | .ok offset => .ok (some ⟨some frame, offset⟩)

end Slot
end VerifierTrace
