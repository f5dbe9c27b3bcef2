import VerifierTrace.Event
import VerifierTrace.LogLine.Reader
import VerifierTrace.Machine.Run
import VerifierTrace.Provenance
import VerifierTrace.SourceMap
import VerifierTrace.Text.Lines

/-!
# VerifierTrace.Analysis

One pass over a log: its lines are read, its notices take effect, the machine goes through the
lines, and the source map is made. After that the result is only asked.

The pass fails only for a numeral that is too long. `Analysis.events` tells what happened on the
way, as far as the pass got.
-/

namespace VerifierTrace

/-- Everything that one pass found out. -/
structure Analysis where
  config : Config
  lines : List LogLine
  settlements : List Settlement
  machines : List Machine
  deriving DecidableEq

namespace Analysis

def readFrom (idx : Int) : List String → Except NumeralFault (List LogLine)
  | [] => .ok []
  | raw :: more =>
    match LogLine.read raw idx with
    | .error e => .error e
    | .ok line =>
      match readFrom (idx + 1) more with
      | .error e => .error e
      | .ok lines => .ok (line :: lines)

def readLines (raws : List String) : Except NumeralFault (List LogLine) := readFrom 0 raws

def ofLines (config : Config) (read : List LogLine) : Except NumeralFault Analysis :=
  let settled := Notice.settleAll config read
  match Machine.run config.setup settled.1 with
  | .error e => .error e
  | .ok machines => .ok ⟨config, settled.1, settled.2, machines⟩

def run (config : Config) (raws : List String) : Except NumeralFault Analysis :=
  match readLines raws with
  | .error e => .error e
  | .ok read => ofLines config read

variable (a : Analysis)

def states : List State := a.machines.map Machine.state

def history : History := ⟨a.lines, a.states⟩

def sourceMap : SourceMap := SourceMap.ofLines a.lines

def final : Machine := Machine.last (.start a.config.setup) a.machines

/-- The state after a line. Beyond the last line it stays the last state; before the first line it
is the state at program entry with the default values. -/
def stateAt (idx : Int) : State :=
  if idx < 0 then .initial {} 0 0
  else (a.states[min idx.toNat (a.states.length - 1)]?).getD (.initial {} 0 0)

def instructionLines : List LogLine := a.lines.filter LogLine.isInstruction

/-- The index of the last instruction line, zero if there is none. -/
def lastInstruction : Int := (a.instructionLines.getLast?.map LogLine.idx).getD 0

def count (label : String) : Nat := (a.lines.filter fun l => l.content.label == label).length

def maxFrame : Nat := (a.states.map State.frame).foldl max 0

def dependencies (idx : Int) (slot : Slot) : List Int := a.history.dependencies idx slot

/-- The slot that a selection is traced through. -/
def retarget (idx : Int) (slot : Slot) : Slot := a.history.retarget idx slot

def selection (idx : Int) (slot : Slot) : List Int := a.history.selection idx slot

def tally : Tally where
  lines := a.lines.length
  instructions := a.count "INSTRUCTION"
  unrecognized := a.count "UNRECOGNIZED"
  settled := a.settlements.length
  unbalanced := a.final.unbalanced

/-! ## Events -/

/-- What is told about the reading of lines, as far as it gets. -/
def readEvents (idx : Int) : List String → List Event
  | [] => []
  | raw :: more =>
    match LogLine.read raw idx with
    | .error _ => []
    | .ok line => line.fault?.toList.map Event.degraded ++ readEvents (idx + 1) more

def machineEvents (setup : Setup) (lines : List LogLine) : List Event :=
  ((Machine.start setup).unbalancedExits lines).map (fun l => Event.unbalancedExit l.idx) ++
    match Machine.run setup lines with
    | .error _ => []
    | .ok machines =>
      let depth := (Machine.last (.start setup) machines).callers.length
      if depth = 0 then [] else [.unfinishedFrames depth]

def mapEvent (m : SourceMap) : Event := .mapped m.size m.ranges.size

def selectionEvents (h : History) (idx : Int) (slot : Slot) : List Event :=
  let target := h.retarget idx slot
  if target = slot then [] else [.retargeted idx slot target]

def passEvents (config : Config) (read : List LogLine) : List Event :=
  let settled := Notice.settleAll config read
  settled.2.map Event.settled ++ machineEvents config.setup settled.1 ++
    match ofLines config read with
    | .error _ => []
    | .ok a => [mapEvent a.sourceMap, .analyzed a.tally]

def events (config : Config) (raws : List String) : List Event :=
  config.warnings.map Event.oddConfig ++ readEvents 0 raws ++
    match readLines raws with
    | .error _ => []
    | .ok read => passEvents config read

end Analysis
end VerifierTrace
