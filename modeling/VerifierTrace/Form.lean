import VerifierTrace.Analysis
import VerifierTrace.Sexp.Basic

/-!
# VerifierTrace.Form

The results of an analysis as S-expressions, one form for each line, each state, and the source map:

```
(line 1 instruction :pc 0 :ins ALU :reads () :writes ("r2") :exprs (("r2" "1")) :raw "…")
(state 1 :pc 0 :frame 0 :slots (("r2" "1" WRITE 1) ("r1" "ctx()" NONE)))
```

Slots and values are texts, keywords and kinds are symbols.
-/

namespace VerifierTrace

open Sexp (symbol keyword text number list texts)

namespace StateExpr

/-- Facts as pairs of slot and value. -/
def forms (exprs : List StateExpr) : Sexp := list (exprs.map fun e => texts [e.slot, e.value])

end StateExpr

namespace LogLine

/-- What follows the index of a line. -/
def contentForm (raw : String) : Content → List Sexp
  | .instruction ins exprs =>
    [symbol "instruction", keyword "pc", number (ins.pc.getD 0 : Nat), keyword "ins",
      symbol ins.action.fineLabel, keyword "reads", texts ins.reads, keyword "writes",
      texts ins.writes, keyword "exprs", StateExpr.forms exprs, keyword "raw", text raw]
  | .source a =>
    [symbol "source", keyword "id", text a.id, keyword "content", text a.content] ++
      if a.ignored then [keyword "ignore"] else []
  | .notice (.globalFunction id name) =>
    [symbol "known-message", keyword "global-func", text name, keyword "func-id",
      number (id : Nat)]
  | .notice (.stateBlock pc exprs) =>
    [symbol "known-message", keyword "state-exprs", StateExpr.forms exprs, keyword "pc",
      number (pc : Nat)]
  | .unrecognized _ => [symbol "unrecognized", keyword "raw", text raw]

def form (l : LogLine) : Sexp :=
  list (symbol "line" :: number l.idx :: contentForm l.raw l.content)

def writeForms (lines : List LogLine) : String := Sexp.writeLines (lines.map form)

end LogLine

namespace State

/-- A slot with its value, the effect on it, and its last writer if it has one. -/
def slotForm (s : State) (slot : Slot) (c : Cell) : Sexp :=
  list <|
    [text slot, text c.value, symbol c.effect.label] ++ (s.writerOf? slot).toList.map number

def form (s : State) : Sexp :=
  list [symbol "state", number s.idx, keyword "pc", number s.pc, keyword "frame",
    number (s.frame : Nat), keyword "slots",
    list (s.values.entries.map fun e => s.slotForm e.1 e.2)]

def writeForms (states : List State) : String := Sexp.writeLines (states.map form)

end State

namespace SourceMap

def form (m : SourceMap) : Sexp :=
  list [symbol "source-map", keyword "lines",
    list (m.sources.entries.map fun e =>
      list [text e.1, text e.2.note.content, list ((m.logLines e.1).map number)]),
    keyword "files",
    list (m.ranges.entries.map fun e =>
      list [text e.1, number (e.2.1 : Nat), number (e.2.2 : Nat)])]

def writeForm (m : SourceMap) : String := m.form.write

end SourceMap
end VerifierTrace
