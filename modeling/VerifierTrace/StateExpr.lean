import VerifierTrace.Slot
import VerifierTrace.Text.Blank

/-!
# VerifierTrace.StateExpr

The facts `key=value` that the verifier prints about storage locations.

A value ends at the first space outside parentheses, so `scalar(umax=255, var_off=(0x0; 0xff))` is
one value; a closing parenthesis without an open one does not count. A block of facts may start
with the marker `; ` and with the frame that they are about.

* `StateExpr.read?`: one fact at the front of a text.
* `StateExpr.readAll`: facts up to the first text that is none.
* `StateExpr.readBlock`, `StateExpr.readBare`: whole blocks, with what is left unread.
-/

namespace VerifierTrace

/-- A reported fact: the slot, its value, the key as printed, and the frame if one is named. -/
structure StateExpr where
  slot : Slot
  value : String
  key : String
  frame : Option Nat
  deriving DecidableEq, Repr

namespace StateExpr

/-- Splits a text at its first space outside `depth` open parentheses. -/
def splitValue : Nat → List Char → List Char × List Char
  | _, [] => ([], [])
  | depth, c :: rest =>
    if c = ' ' ∧ depth = 0 then ([], c :: rest)
    else
      let depth' := if c = '(' then depth + 1 else if c = ')' then depth - 1 else depth
      let (value, more) := splitValue depth' rest
      (c :: value, more)

def isKeyChar (c : Char) : Bool := !Text.isBlank c && c ≠ '='

def ofPair (frame : Option Nat) (key value : List Char) : StateExpr where
  slot := Slot.ofKey (String.ofList key)
  value := Slot.canonical (String.ofList value)
  key := String.ofList key
  frame := frame

/-- A key, the sign `=`, a value, and the text after it. -/
def split? (cs : List Char) : Option (List Char × List Char × List Char) :=
  match cs.takeWhile isKeyChar, cs.dropWhile isKeyChar with
  | k :: key, '=' :: rest => some (k :: key, splitValue 0 rest)
  | _, _ => none

def read? (frame : Option Nat) (cs : List Char) : Option (StateExpr × List Char) :=
  match split? cs with
  | some (key, value, rest) => some (ofPair frame key value, rest)
  | none => none

theorem splitValue_append (depth : Nat) (cs : List Char) :
    (splitValue depth cs).1 ++ (splitValue depth cs).2 = cs := by
  fun_induction splitValue depth cs with
  | case1 => rfl
  | case2 => rfl
  | case3 depth c rest h depth' value more hsplit ih =>
    rw [hsplit] at ih
    simp only [List.cons_append, ih]

/-- A key, `=`, a value and the rest make up the text. -/
theorem split?_append {cs key value rest : List Char} (h : split? cs = some (key, value, rest)) :
    key ++ '=' :: value ++ rest = cs := by
  unfold split? at h
  split at h
  · next k tail more hkey hrest =>
    simp only [Option.some.injEq, Prod.mk.injEq] at h
    obtain ⟨rfl, hs⟩ := h
    have hv : value ++ rest = more := by
      have hm := splitValue_append 0 more
      rw [hs] at hm
      exact hm
    have hcs := List.takeWhile_append_dropWhile (p := isKeyChar) (l := cs)
    rw [hkey, hrest, ← hv] at hcs
    simpa using hcs
  · exact absurd h (by simp)

theorem read?_length_lt {frame : Option Nat} {cs rest : List Char} {e : StateExpr}
    (h : read? frame cs = some (e, rest)) : rest.length < cs.length := by
  unfold read? at h
  split at h
  · next key value more hsplit =>
    simp only [Option.some.injEq, Prod.mk.injEq] at h
    obtain ⟨-, rfl⟩ := h
    have hc := congrArg List.length (split?_append hsplit)
    simp only [List.length_append, List.length_cons] at hc
    omega
  · exact absurd h (by simp)

/-- Facts with white space after each, up to the first text that is none. -/
def readAll (frame : Option Nat) (cs : List Char) : List StateExpr × List Char :=
  match _h : read? frame cs with
  | none => ([], cs)
  | some (e, rest) =>
    let more := readAll frame (Text.skipBlanks rest)
    (e :: more.1, more.2)
termination_by cs.length
decreasing_by
  exact Nat.lt_of_le_of_lt (Text.skipBlanks_length_le rest) (read?_length_lt _h)

/-- The digits of `frame1: ` at the front of a text, and the text after it. -/
def frameDigits? (cs : List Char) : Option (List Char × List Char) :=
  match "frame".toList.isPrefixOf? cs with
  | none => none
  | some rest =>
    match Decimal.run? rest with
    | some (digits, ':' :: ' ' :: more) => some (digits, more)
    | _ => none

/-- The frame that a block names first, and the text after it. -/
def readFrame (cs : List Char) : Except NumeralFault (Option Nat × List Char) :=
  match frameDigits? cs with
  | none => .ok (none, cs)
  | some (digits, rest) =>
    match Decimal.read digits with
    | .error e => .error e
    | .ok frame => .ok (some frame, rest)

def readFramed (cs : List Char) : Except NumeralFault (List StateExpr × List Char) :=
  match readFrame cs with
  | .error e => .error e
  | .ok (frame, rest) => .ok (readAll frame rest)

/-- What starts a block at the end of an instruction. -/
def marker : List Char := [';', ' ']

/-- A block, and the text after it. Where a marker is required, a text without one has no facts;
elsewhere it may be left out. -/
def readBlock (markerRequired : Bool) (cs : List Char) :
    Except NumeralFault (List StateExpr × List Char) :=
  match marker.isPrefixOf? cs with
  | some rest => readFramed rest
  | none => if markerRequired then .ok ([], cs) else readFramed cs

/-- The digits of `12:` at the front of a text, and the text after it. -/
def pcDigits? (cs : List Char) : Option (List Char × List Char) :=
  match Decimal.run? cs with
  | some (digits, ':' :: rest) => some (digits, rest)
  | _ => none

/-- What a line without an instruction reports. -/
structure Bare where
  /-- The number of the instruction, `none` if the line starts with none. -/
  pc : Option Nat
  exprs : List StateExpr
  rest : List Char
  deriving DecidableEq, Repr

/-- A block behind the number of an instruction. White space before and after the number is
skipped; a text that does not start with a number is left whole. -/
def readBare (cs : List Char) : Except NumeralFault Bare :=
  match pcDigits? (Text.skipBlanks cs) with
  | none => .ok ⟨none, [], cs⟩
  | some (digits, rest) =>
    match Decimal.read digits with
    | .error e => .error e
    | .ok pc =>
      match readFramed (Text.skipBlanks rest) with
      | .error e => .error e
      | .ok (exprs, more) => .ok ⟨some pc, exprs, more⟩

end StateExpr
end VerifierTrace
