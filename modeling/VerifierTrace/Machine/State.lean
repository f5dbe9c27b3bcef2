import VerifierTrace.LogLine.Basic
import VerifierTrace.Table

/-!
# VerifierTrace.Machine.State

What is known about the machine after a line of the log.

A state gives every slot seen so far a `Cell`: its last known value, how the line at hand touched
it, and the value that an update replaced. Beside it stands, for every slot that some line wrote,
the index of the last one. Values are texts as the verifier prints them, and the empty text is an
unknown value.
-/

namespace VerifierTrace

inductive Effect where
  | none
  | read
  | write
  /-- Read, then written in place, as by `r0 += 1`. -/
  | update
  deriving DecidableEq, Repr

namespace Effect

def label : Effect → String
  | .none => "NONE"
  | .read => "READ"
  | .write => "WRITE"
  | .update => "UPDATE"

end Effect

structure Cell where
  value : String
  effect : Effect := .none
  /-- The value that an update replaced, if it was known. -/
  previous : Option String := none
  deriving DecidableEq, Repr

structure State where
  values : Table Slot Cell
  /-- For every slot that was written, the index of the line that wrote it last. -/
  writers : Table Slot Int
  frame : Nat
  /-- The index of the last instruction line. -/
  idx : Int
  /-- The number of the last instruction. -/
  pc : Int
  deriving DecidableEq

/-- The values that a program starts with. -/
structure Setup where
  context : String := "ctx()"
  frameBase : String := "fp-0"
  deriving DecidableEq, Repr

namespace State

def valueOf? (s : State) (slot : Slot) : Option String := (s.values.get? slot).map Cell.value

/-- The effect of the last line on a slot. -/
def effectOf? (s : State) (slot : Slot) : Option Effect := (s.values.get? slot).map Cell.effect

/-- The value of a slot, empty for a slot not seen yet. -/
def valueD (s : State) (slot : Slot) : String := (s.valueOf? slot).getD ""

/-- The line that wrote a slot last. -/
def writerOf? (s : State) (slot : Slot) : Option Int := s.writers.get? slot

def touched (s : State) : List (Slot × Effect) :=
  s.values.entries.filterMap fun e =>
    if e.2.effect = .none then .none else some (e.1, e.2.effect)

/-- Program entry: the context in `r1`, the frame base in `r10`, and nothing known elsewhere. -/
def initial (setup : Setup) (idx pc : Int) : State where
  values :=
    let general : Table Slot Cell :=
      .ofList (Register.general.map fun r => (r.slot, ⟨"", .none, none⟩))
    (general.insert Register.context.slot ⟨setup.context, .none, none⟩).insert
      Register.framePointer.slot ⟨setup.frameBase, .none, none⟩
  writers := .empty
  frame := 0
  idx := idx
  pc := pc

end State

namespace Cell

def untouched (c : Cell) : Cell := ⟨c.value, .none, none⟩

end Cell

/-- The values of all slots, none of them touched. -/
def settle (values : Table Slot Cell) : Table Slot Cell := values.mapValues Cell.untouched

/-- Reported values replace those that are known; effects stay. -/
def report (values : Table Slot Cell) (exprs : List StateExpr) : Table Slot Cell :=
  exprs.foldl (fun values e =>
    match values.get? e.slot with
    | some c => values.insert e.slot { c with value := e.value }
    | none => values.insert e.slot ⟨e.value, .none, none⟩) values

/-- The value reported for a slot; of several reports the last counts. -/
def reported? (exprs : List StateExpr) (slot : Slot) : Option String :=
  (exprs.reverse.find? fun e => decide (e.slot = slot)).map StateExpr.value

end VerifierTrace
