import VerifierTrace.Analysis
import VerifierTrace.Record
import VerifierTrace.Text.Column

/-!
# VerifierTrace.Row

The results of an analysis as rows of text for people to read.
-/

namespace VerifierTrace

namespace LogLine

/-- The index of a line at the right of its column, and two spaces. -/
def indexColumn (idx : Int) : String := Text.alignRight 6 (toString idx) ++ "  "

/-- The kind of a line, and for an instruction its kind as well. -/
def tag (l : LogLine) : String :=
  match l.instruction? with
  | some ins => l.content.label ++ "/" ++ ins.action.fineLabel
  | none => l.content.label

def row (l : LogLine) : String := indexColumn l.idx ++ Text.alignLeft 32 l.tag ++ " " ++ l.raw

def shortRow (l : LogLine) : String := indexColumn l.idx ++ l.raw

end LogLine

namespace State

def touchedItem (s : State) (slot : Slot) (effect : Effect) : String :=
  let value := s.valueD slot
  slot ++ "=" ++ (if value.isEmpty then "?" else value) ++ "(" ++ effect.label ++ ")"

/-- Index, place and frame, and the touched slots. -/
def row (s : State) : String :=
  LogLine.indexColumn s.idx ++ "pc=" ++ Text.alignLeft 6 (toString s.pc) ++ " frame=" ++
    toString s.frame ++ "  " ++
    String.intercalate " " (s.touched.map fun t => s.touchedItem t.1 t.2)

end State

namespace SourceMap

/-- A source line with the log lines that belong to it. -/
def sourceRow (m : SourceMap) (id : String) (a : Announcement) : String :=
  let idxs := String.intercalate "," ((m.logLines id).map fun i => toString i)
  Text.alignLeft 32 id ++ " [" ++ idxs ++ "]  " ++ a.note.content

/-- A file with its first and last line. -/
def fileRow (file : String) (range : Nat × Nat) : String :=
  file ++ ": lines " ++ toString range.1 ++ "-" ++ toString range.2

/-- The rows of the source lines, then those of the files. -/
def rows (m : SourceMap) : List String :=
  (m.sources.entries.map fun e => m.sourceRow e.1 e.2) ++
    m.ranges.entries.map fun e => fileRow e.1 e.2

end SourceMap
end VerifierTrace
