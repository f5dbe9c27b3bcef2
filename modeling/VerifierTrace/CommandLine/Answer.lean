import VerifierTrace.CommandLine.Request
import VerifierTrace.Form
import VerifierTrace.Row

/-!
# VerifierTrace.CommandLine.Answer

The texts that answer a query about an analysis, in each format.
-/

namespace VerifierTrace

/-- The lines that the value of a slot at a line came from, from the last to the first. -/
structure Origin where
  line : Int
  slot : Slot
  /-- The slot that the trace started from. -/
  traced : Slot
  lines : List Int
  deriving DecidableEq, Repr

namespace Origin

/-- The origin of a value; `exact` traces the slot as given. -/
def ofAnalysis (a : Analysis) (line : Int) (slot : Slot) (exact : Bool) : Origin :=
  if exact then ⟨line, slot, slot, History.descending (a.dependencies line slot)⟩
  else ⟨line, slot, a.retarget line slot, History.descending (a.selection line slot)⟩

def logLines (o : Origin) (a : Analysis) : List LogLine :=
  o.lines.filterMap fun idx => History.at? a.lines idx

def record (o : Origin) : Json :=
  .object [("line", .int o.line), ("slot", .text o.slot), ("traced_slot", .text o.traced),
    ("dependencies", .list (o.lines.map .int))]

def rows (o : Origin) (a : Analysis) : List String :=
  (o.slot ++ " at line " ++ toString o.line ++ " (traced as " ++ o.traced ++ "): " ++
      toString o.lines.length ++ " line(s)") ::
    (o.logLines a).map LogLine.shortRow

end Origin

namespace CommandLine
namespace Answer

/-- The lines of a log; their summary ends with what the analysis comes to. -/
def lines (a : Analysis) : Format → String
  | .summary => Text.rows (a.lines.map LogLine.row ++ [a.summaryRecord.inline])
  | .json => (LogLine.records a.lines).indented
  | .sexp => LogLine.writeForms a.lines

def states (ss : List State) : Format → String
  | .summary => Text.rows (ss.map State.row)
  | .json => (State.records ss).indented
  | .sexp => State.writeForms ss

def origin (a : Analysis) (o : Origin) : Format → String
  | .summary => Text.rows (o.rows a)
  | .json => o.record.indented
  | .sexp => LogLine.writeForms (o.logLines a)

def sources (m : SourceMap) : Format → String
  | .summary => Text.rows m.rows
  | .json => m.record.indented
  | .sexp => m.writeForm

end Answer
end CommandLine
end VerifierTrace
