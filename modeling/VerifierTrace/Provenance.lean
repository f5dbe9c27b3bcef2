import VerifierTrace.Machine.State

/-!
# VerifierTrace.Provenance

Where the value of a slot at a line came from.

The trace goes from a slot to the line that wrote it last. If that instruction reads exactly one
slot, its value was copied from there, and the trace goes on; otherwise it ends. A line that updates
a slot in place stands for nothing new: the writer before it is taken instead.

* `History.link`: one step of the trace.
* `History.walk`: the places it visits, none twice, so it ends on any history, also on one whose
  writers make no sense.
* `History.dependencies`: the lines it reports.
* `History.selection`: the same for a line picked by its destination, where the value is meant that
  the line copies.
-/

namespace VerifierTrace

/-- The lines of a log and the states after them. -/
structure History where
  lines : List LogLine
  states : List State
  deriving DecidableEq

namespace History

/-- A member of a list at an index that may be out of range. -/
def at? {α : Type} (xs : List α) (idx : Int) : Option α :=
  if 0 ≤ idx then xs[idx.toNat]? else none

def instructionAt? (h : History) (idx : Int) : Option Instruction :=
  (at? h.lines idx).bind LogLine.instruction?

def stateAt? (h : History) (idx : Int) : Option State := at? h.states idx

/-- A place of the trace: a line and a slot. -/
abbrev Place := Int × Slot

/-- A step of the trace: the line to report, and the place to go on from. -/
structure Link where
  line : Int
  next : Option Place
  deriving DecidableEq, Repr

/-- From an update of `slot` by line `idx`: the writer before it, from which the trace goes on. -/
def linkBefore (h : History) (idx : Int) (slot : Slot) : Option Link := do
  let before ← h.stateAt? (idx - 1)
  let prior ← before.writerOf? slot
  let _ ← h.instructionAt? prior
  return ⟨prior, some (prior, slot)⟩

/-- One step of the trace; `none` where it ends without a line to report. -/
def link (h : History) : Place → Option Link
  | (idx, slot) => do
    let _ ← h.instructionAt? idx
    let state ← h.stateAt? idx
    let cell ← state.values.get? slot
    let writer ← state.writerOf? slot
    let ins ← h.instructionAt? writer
    if writer = idx ∧ cell.effect = .update then h.linkBefore idx slot
    else return ⟨writer, ins.soleRead?.map fun source => (writer, source)⟩

/-- A bound on the places that a trace visits: its start, and every pair of a line and a slot that
some instruction reads. -/
def bound (h : History) : Nat :=
  let reads := h.lines.flatMap fun l => (l.instruction?.map Instruction.reads).getD []
  1 + h.lines.length * ((firstOnes reads).length + 1)

/-- The lines reported from a place on, in at most `fuel` steps; a place visited before ends the
trace. -/
def walk (h : History) : Nat → List Place → Place → List Int
  | 0, _, _ => []
  | fuel + 1, visited, place =>
    if place ∈ visited then []
    else match h.link place with
      | none => []
      | some ⟨line, none⟩ => [line]
      | some ⟨line, some next⟩ => line :: walk h fuel (place :: visited) next

/-- The lines that the value of a slot at a line came from, each once, in the order of the
trace. -/
def dependencies (h : History) (idx : Int) (slot : Slot) : List Int :=
  firstOnes (h.walk h.bound [] (idx, slot))

/-- The slot whose value is meant if a line is picked by `slot`: the only slot that the line reads,
if it writes `slot` without reading it. -/
def retarget (h : History) (idx : Int) (slot : Slot) : Slot :=
  match h.instructionAt? idx with
  | none => slot
  | some ins =>
    if slot ∈ ins.writes ∧ slot ∉ ins.reads then ins.soleRead?.getD slot else slot

/-- The lines that the value came from which a line, picked by `slot`, takes over. -/
def selection (h : History) (idx : Int) (slot : Slot) : List Int :=
  h.dependencies idx (h.retarget idx slot)

def ascending (idxs : List Int) : List Int := idxs.mergeSort fun a b => decide (a ≤ b)

def descending (idxs : List Int) : List Int := idxs.mergeSort fun a b => decide (b ≤ a)

/-- The lines of a trace, the latest first. -/
def chain (h : History) (idx : Int) (slot : Slot) : List Int := descending (h.dependencies idx slot)

end History
end VerifierTrace
