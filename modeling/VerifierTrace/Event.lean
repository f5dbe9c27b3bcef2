import VerifierTrace.Diagnostic
import VerifierTrace.Notice

/-!
# VerifierTrace.Event

What the program reports about its own work, beside its results.

An event is a fact about a run; its level, the part of the program that it is about, and its text
follow from it.
-/

namespace VerifierTrace

/-- How much an event matters, from least to most. -/
inductive Level where
  | debug
  | info
  | warning
  | error
  deriving DecidableEq, Repr

namespace Level

def name : Level → String
  | .debug => "DEBUG"
  | .info => "INFO"
  | .warning => "WARNING"
  | .error => "ERROR"

/-- The name in five characters. -/
def tag : Level → String
  | .debug => "DEBUG"
  | .info => "INFO "
  | .warning => "WARNI"
  | .error => "ERROR"

def rank : Level → Nat
  | .debug => 0
  | .info => 1
  | .warning => 2
  | .error => 3

end Level

structure Tally where
  lines : Nat
  instructions : Nat
  unrecognized : Nat
  settled : Nat
  unbalanced : Nat
  deriving DecidableEq, Repr

inductive Event where
  | degraded (fault : Fault)
  | settled (what : Settlement)
  | unbalancedExit (line : Int)
  | unfinishedFrames (count : Nat)
  | mapped (sources files : Nat)
  /-- A trace started at another slot than the one that was asked for. -/
  | retargeted (line : Int) (slot target : Slot)
  /-- A configuration given to an analysis is odd. -/
  | oddConfig (warning : String)
  /-- A configuration in a file is odd. -/
  | oddConfigFile (path warning : String)
  | analyzed (tally : Tally)
  | failed (message : String)
  deriving DecidableEq

namespace Event

def level : Event → Level
  | .oddConfig _ | .oddConfigFile .. => .warning
  | .analyzed _ => .info
  | .failed _ => .error
  | _ => .debug

/-- The part of the program that the event is about, by the name it has in its output. -/
def topic : Event → String
  | .degraded _ => "bpfvlog.line_parser"
  | .settled _ | .oddConfig _ | .analyzed _ => "bpfvlog.analysis"
  | .unbalancedExit _ | .unfinishedFrames _ => "bpfvlog.simulator"
  | .mapped .. => "bpfvlog.source_map"
  | .retargeted .. => "bpfvlog.dependencies"
  | .oddConfigFile .. => "bpfvlog.config"
  | .failed _ => "bpfvlog"

def message : Event → String
  | .degraded fault => "degraded: " ++ fault.text
  | .settled (.folded line name) =>
    "line " ++ toString line ++ ": " ++ name ++ " folded into a helper call"
  | .settled (.merged line count into) =>
    "line " ++ toString line ++ ": " ++ toString count ++ " state exprs merged into line " ++
      toString into
  | .unbalancedExit line =>
    "[" ++ Code.unbalancedExit.text ++ "] line " ++ toString line ++
      ": exit with empty call stack, fresh frame"
  | .unfinishedFrames count =>
    "log ends inside " ++ toString count ++ " unfinished call frame(s)"
  | .mapped sources files =>
    "source map: " ++ toString sources ++ " source lines across " ++ toString files ++ " files"
  | .retargeted line slot target =>
    "line " ++ toString line ++ ": selection " ++ slot ++ " retargeted to " ++ target
  | .oddConfig warning => "analysis config: " ++ warning
  | .oddConfigFile path warning => "config " ++ path ++ ": " ++ warning
  | .analyzed t =>
    "processed " ++ toString t.lines ++ " lines: " ++ toString t.instructions ++
      " instructions, " ++ toString t.unrecognized ++ " unrecognized, " ++ toString t.settled ++
      " fix-ups, " ++ toString t.unbalanced ++ " unbalanced exits"
  | .failed message => message

/-- Level, topic and text in one line. -/
def text (e : Event) : String := e.level.name ++ " " ++ e.topic ++ ": " ++ e.message

/-- The line in which a command shows the event. -/
def commandText (e : Event) : String :=
  "[" ++ e.level.tag ++ "] " ++ e.topic ++ ": " ++ e.message

end Event
end VerifierTrace
