import VerifierTrace.Machine.State

/-!
# VerifierTrace.Machine.Step

One line of the log, one step of the machine.

Nothing is computed. An instruction marks the slots it reads and writes, and the values come from
what the verifier reports behind it. Three kinds of instructions do more:

* a load or a store through a register that holds a stack pointer touches the stack slot behind it;
* a call of a subprogram enters a frame: the arguments go along, the caller's stack slots are
  renamed to `fp[n]…`, and the caller's state is kept;
* an exit leaves the frame: the caller's state comes back with the result in `r0`, and with what was
  written to its stack meanwhile. An exit without a caller starts afresh.

A step fails only if the text of a stack slot holds a numeral that is too long.
-/

namespace VerifierTrace

/-- The machine between two lines: the state, the states of the callers, innermost first, and the
number of exits that had none. -/
structure Machine where
  setup : Setup
  state : State
  callers : List State
  unbalanced : Nat
  deriving DecidableEq

namespace Machine

def start (setup : Setup) : Machine := ⟨setup, .initial setup 0 0, [], 0⟩

end Machine

namespace State

/-! ## Instructions in one frame -/

/-- Marks a slot as read; its value stays. -/
def markRead (values : Table Slot Cell) (slot : Slot) : Table Slot Cell :=
  values.insert slot ⟨((values.get? slot).map Cell.value).getD "", .read, none⟩

/-- The text, if it is not empty. -/
def known? (value : String) : Option String := if value.isEmpty then none else some value

/-- Marks a slot as written, or as updated if the same instruction reads it. -/
def markWritten (reads : List Slot) (values : Table Slot Cell) (slot : Slot) : Table Slot Cell :=
  if slot ∈ reads then
    values.insert slot ⟨"", .update, ((values.get? slot).map Cell.value).bind known?⟩
  else values.insert slot ⟨"", .write, none⟩

/-- The stack slot, as seen from `frame`, that memory behind a register lies in, if the register
holds a stack pointer. -/
def slotBehind (values : Table Slot Cell) (frame : Nat) (base : Register) (offset : Int) :
    Except NumeralFault (Option Slot) :=
  match values.get? base.slot with
  | none => .ok none
  | some c =>
    match Slot.location c.value with
    | .error e => .error e
    | .ok none => .ok none
    | .ok (some l) =>
      match Decimal.checkWritable (l.offset + offset) with
      | .error e => .error e
      | .ok z => .ok (some (Slot.ofFrame (l.frame.getD frame : Nat) z frame))

/-- The value reported for a slot if that is known, else the value of another slot, else empty. -/
def reportedOr (exprs : List StateExpr) (slot : Slot) (values : Table Slot Cell) (other : Slot) :
    String :=
  match (reported? exprs slot).bind known? with
  | some value => value
  | none => ((values.get? other).map Cell.value).getD ""

/-- Values and writers while a line is applied. -/
structure Draft where
  values : Table Slot Cell
  writers : Table Slot Int
  deriving DecidableEq

/-- A store through a stack pointer: the slot behind it takes the value of `src`. -/
def storeBehind (d : Draft) (frame : Nat) (idx : Int) (exprs : List StateExpr)
    (dst src : Operand.Form) : Except NumeralFault Draft :=
  match dst.pointer? with
  | none => .ok d
  | some (base, offset) =>
    match slotBehind d.values frame base offset with
    | .error e => .error e
    | .ok none => .ok d
    | .ok (some slot) =>
      let value := reportedOr exprs slot d.values src.slot
      .ok ⟨d.values.insert slot ⟨value, .write, none⟩, d.writers.insert slot idx⟩

/-- A load through a stack pointer: `dst` takes the value of the slot behind it, unless a value is
reported for `dst`. -/
def loadBehind (d : Draft) (frame : Nat) (exprs : List StateExpr) (dst src : Operand.Form) :
    Except NumeralFault Draft :=
  match src.pointer? with
  | none => .ok d
  | some (base, offset) =>
    match slotBehind d.values frame base offset with
    | .error e => .error e
    | .ok none => .ok d
    | .ok (some slot) =>
      let value := reportedOr exprs slot d.values slot
      let values := d.values.insert slot ⟨value, .read, none⟩
      match reported? exprs dst.slot with
      | some _ => .ok { d with values := values }
      | none => .ok { d with values := values.insert dst.slot ⟨value, .write, none⟩ }

/-- Loads and stores through pointers that an assignment makes. -/
def followPointers (d : Draft) (frame : Nat) (idx : Int) (exprs : List StateExpr) :
    Action → Except NumeralFault Draft
  | .compute .assign dst src =>
    match storeBehind d frame idx exprs dst.form src.form with
    | .error e => .error e
    | .ok d => loadBehind d frame exprs dst.form src.form
  | _ => .ok d

/-- The slots that an instruction reads and writes, marked, with the values reported behind it. -/
def mark (s : State) (idx : Int) (ins : Instruction) (exprs : List StateExpr) : Draft where
  values :=
    report (ins.writes.foldl (markWritten ins.reads) (ins.reads.foldl markRead (settle s.values)))
      exprs
  writers := ins.writes.foldl (fun t slot => t.insert slot idx) s.writers

/-- The state after an instruction that neither enters nor leaves a frame. -/
def apply (s : State) (idx : Int) (ins : Instruction) (exprs : List StateExpr) :
    Except NumeralFault State :=
  match followPointers (s.mark idx ins exprs) s.frame idx exprs ins.action with
  | .error e => .error e
  | .ok d => .ok ⟨d.values, d.writers, s.frame, idx, (ins.pc.getD 0 : Nat)⟩

/-- The state after a line that is no instruction. -/
def rest (s : State) : State := { s with values := settle s.values }

/-! ## Frames -/

/-- A stack slot of the caller under its name in the frame that it calls. -/
def carrySlot (caller : State) (d : Draft) (slot : Slot) (c : Cell) : Except NumeralFault Draft :=
  match Slot.location slot with
  | .error e => .error e
  | .ok none => .ok d
  | .ok (some l) =>
    let nested := Slot.ofFrame (l.frame.getD caller.frame : Nat) l.offset (caller.frame + 1 : Nat)
    .ok ⟨d.values.insert nested c.untouched,
      match caller.writerOf? slot with
      | some w => d.writers.insert nested w
      | none => d.writers⟩

def carrySlots (caller : State) : Draft → List (Slot × Cell) → Except NumeralFault Draft
  | d, [] => .ok d
  | d, e :: more =>
    match carrySlot caller d e.1 e.2 with
    | .error fault => .error fault
    | .ok d => carrySlots caller d more

/-- A new frame: the arguments as the caller has them, the other registers without a value, and a
fresh frame pointer. -/
def newFrame (setup : Setup) (caller : State) : Draft where
  values :=
    let arguments : Table Slot Cell := Register.scratch.foldl
      (fun t r => t.insert r.slot ⟨caller.valueD r.slot, .read, none⟩) .empty
    let cleared := (Register.result :: Register.preserved).foldl
      (fun t r => t.insert r.slot ⟨"", .write, none⟩) arguments
    cleared.insert Register.framePointer.slot ⟨setup.frameBase, .none, none⟩
  writers := Register.scratch.foldl
    (fun t r => match caller.writerOf? r.slot with
      | some w => t.insert r.slot w
      | none => t) .empty

/-- The first state of a called subprogram. -/
def enter (setup : Setup) (caller : State) (idx : Int) (ins : Instruction)
    (exprs : List StateExpr) : Except NumeralFault State :=
  match carrySlots caller (newFrame setup caller) caller.values.entries with
  | .error e => .error e
  | .ok d =>
    .ok ⟨report d.values exprs, d.writers, caller.frame + 1, idx, (ins.pc.getD 0 : Nat)⟩

/-- The state of the caller with its argument registers emptied. -/
def scratched (caller : State) : Draft where
  values := Register.scratch.foldl (fun t r => t.insert r.slot ⟨"", .write, none⟩)
    (settle caller.values)
  writers := Register.scratch.foldl (fun t r => t.erase r.slot) caller.writers

/-- What a callee wrote to a stack slot of the caller or of a frame further out, under the name that
the slot has in the caller. -/
def returnSlot (caller inner : State) (d : Draft) (slot : Slot) (writer : Int) :
    Except NumeralFault Draft :=
  match Slot.location slot with
  | .error e => .error e
  | .ok none => .ok d
  | .ok (some l) =>
    match l.frame with
    | none => .ok d
    | some owner =>
      if caller.frame < owner then .ok d
      else
        let name := Slot.ofFrame owner l.offset caller.frame
        .ok ⟨match inner.values.get? slot with
          | some c => d.values.insert name c.untouched
          | none => d.values,
          d.writers.insert name writer⟩

def returnSlots (caller inner : State) : Draft → List (Slot × Int) → Except NumeralFault Draft
  | d, [] => .ok d
  | d, e :: more =>
    match returnSlot caller inner d e.1 e.2 with
    | .error fault => .error fault
    | .ok d => returnSlots caller inner d more

def takeResult (inner : State) (d : Draft) : Draft :=
  let r := Register.result.slot
  ⟨d.values.insert r ⟨inner.valueD r, .none, none⟩,
    match inner.writerOf? r with
    | some w => d.writers.insert r w
    | none => d.writers.erase r⟩

/-- The state of the caller after the callee, in state `inner`, exits. -/
def leave (caller inner : State) (idx : Int) (ins : Instruction) : Except NumeralFault State :=
  match returnSlots caller inner (scratched caller) inner.writers.entries with
  | .error e => .error e
  | .ok d =>
    let d := takeResult inner d
    .ok ⟨d.values, d.writers, caller.frame, idx, (ins.pc.getD 0 : Nat)⟩

end State

namespace Machine

/-! ## Steps -/

def call (m : Machine) (idx : Int) (ins : Instruction) (exprs : List StateExpr) :
    Except NumeralFault Machine :=
  match State.enter m.setup m.state idx ins exprs with
  | .error e => .error e
  | .ok s => .ok { m with state := s, callers := m.state :: m.callers }

def exit (m : Machine) (idx : Int) (ins : Instruction) : Except NumeralFault Machine :=
  match m.callers with
  | [] =>
    .ok { m with
      state := .initial m.setup idx (ins.pc.getD 0 : Nat), unbalanced := m.unbalanced + 1 }
  | caller :: more =>
    match State.leave caller m.state idx ins with
    | .error e => .error e
    | .ok s => .ok { m with state := s, callers := more }

def apply (m : Machine) (idx : Int) (ins : Instruction) (exprs : List StateExpr) :
    Except NumeralFault Machine :=
  match m.state.apply idx ins exprs with
  | .error e => .error e
  | .ok s => .ok { m with state := s }

def execute (m : Machine) (idx : Int) (ins : Instruction) (exprs : List StateExpr) :
    Except NumeralFault Machine :=
  match ins.action with
  | .callSubprogram .. => m.call idx ins exprs
  | .exit => m.exit idx ins
  | _ => m.apply idx ins exprs

def step (m : Machine) (line : LogLine) : Except NumeralFault Machine :=
  match line.content with
  | .instruction ins exprs => m.execute line.idx ins exprs
  | _ => .ok { m with state := m.state.rest }

end Machine
end VerifierTrace
