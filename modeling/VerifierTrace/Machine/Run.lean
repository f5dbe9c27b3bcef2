import VerifierTrace.Machine.Step

/-!
# VerifierTrace.Machine.Run

The machine over a whole log: one state for every line, in order. What a run leaves behind is how
many exits had no caller and how many calls had no exit.
-/

namespace VerifierTrace
namespace Machine

def trace (m : Machine) : List LogLine → Except NumeralFault (List Machine)
  | [] => .ok []
  | line :: more =>
    match m.step line with
    | .error e => .error e
    | .ok m =>
      match trace m more with
      | .error e => .error e
      | .ok ms => .ok (m :: ms)

/-- The last machine of a trace that starts at `m`. -/
def last (m : Machine) (ms : List Machine) : Machine := ms.getLast?.getD m

/-- The machines that a fresh machine goes through. -/
def run (setup : Setup) (lines : List LogLine) : Except NumeralFault (List Machine) :=
  trace (start setup) lines

def states (setup : Setup) (lines : List LogLine) : Except NumeralFault (List State) :=
  (run setup lines).map fun ms => ms.map Machine.state

/-- The machine after a run of its own over a log: open calls are dropped, and the exits without a
caller are those of the run. -/
def afterRun (m : Machine) (ms : List Machine) : Machine :=
  { m with callers := [], unbalanced := (last (start m.setup) ms).unbalanced }

/-- Whether the line is an exit that has no caller to return to. -/
def exitsUnbalanced (m : Machine) (line : LogLine) : Bool :=
  match line.content with
  | .instruction ins _ => decide (ins.action = .exit) && m.callers.isEmpty
  | _ => false

/-- The lines of a trace that exit without a caller, as far as the trace gets. -/
def unbalancedExits (m : Machine) : List LogLine → List LogLine
  | [] => []
  | line :: more =>
    let here := if m.exitsUnbalanced line then [line] else []
    match m.step line with
    | .error _ => here
    | .ok m => here ++ unbalancedExits m more

end Machine
end VerifierTrace
