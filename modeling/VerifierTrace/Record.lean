import VerifierTrace.Analysis
import VerifierTrace.Json.Basic

/-!
# VerifierTrace.Record

The results of an analysis as JSON records. Members come in a fixed order; those that may be missing
are left out, except for the number of an instruction and the frame of a fact, which are null.
-/

namespace VerifierTrace

open Json (text int nat list object texts ofOption)

namespace Opcode

def record (o : Opcode) : Json :=
  object [("iclass", text o.opClass.name), ("code", nat o.code), ("source", text o.source.name)]

end Opcode

namespace Extent

def record (e : Extent) : Json := object [("offset", int e.offset), ("size", int e.size)]

end Extent

namespace Operand

def addressRecord (a : Register × Int) : Json :=
  object [("address_reg", text a.1.slot), ("offset", int a.2)]

def record (o : Operand) : Json :=
  object <|
    [("type", text o.form.label), ("id", text o.slot), ("size", nat o.form.size)] ++
    (o.form.address?.toList.map fun a => ("memref", addressRecord a)) ++
    [("location", o.extent.record)]

end Operand

namespace Instruction

/-- The members that are particular to an action. -/
def actionMembers : Action → List (String × Json)
  | .compute op dst src =>
    [("operator", text op.symbol), ("dst", dst.record), ("src", src.record)]
  | .cast dst src toSpace fromSpace =>
    [("dst", dst.record), ("src", src.record),
      ("direction", text (fromSpace ++ "->" ++ toSpace))]
  | .exit => [("jmp_kind", text Action.exit.fineLabel)]
  | .goto word target _ =>
    [("jmp_kind", text word.label), ("goto", text word.text), ("target", text target)]
  | .branch left op right target =>
    [("jmp_kind", text "CONDITIONAL_GOTO"), ("target", text target),
      ("cond", object [("left", left.record), ("op", text op.symbol), ("right", right.record)])]
  | .callHelper target _ => [("jmp_kind", text "HELPER_CALL"), ("target", text target)]
  | .callSubprogram target _ => [("jmp_kind", text "SUBPROGRAM_CALL"), ("target", text target)]

def record (i : Instruction) : Json :=
  object <|
    [("kind", text i.action.label), ("opcode", i.opcode.record), ("pc", ofOption nat i.pc),
      ("reads", texts i.reads), ("writes", texts i.writes)] ++
    (i.action.extent?.toList.map fun e => ("location", e.record)) ++
    actionMembers i.action

end Instruction

namespace StateExpr

def record (e : StateExpr) : Json :=
  object [("id", text e.slot), ("value", text e.value), ("raw_key", text e.key),
    ("frame", ofOption nat e.frame)]

def records (exprs : List StateExpr) : Json := list (exprs.map record)

end StateExpr

namespace Notice

def record : Notice → Json
  | .globalFunction id name =>
    object [("type", text "GLOBAL_FUNC_VALID"), ("func_id", nat id), ("func_name", text name)]
  | .stateBlock pc exprs =>
    object [("type", text "STATE_EXPRS"), ("pc", nat pc),
      ("state_exprs", StateExpr.records exprs)]

end Notice

namespace LogLine

/-- The members that are particular to what a line holds. -/
def contentMembers : Content → List (String × Json)
  | .instruction ins exprs => [("ins", ins.record), ("state_exprs", StateExpr.records exprs)]
  | .source a =>
    [("file_name", text a.file), ("line_num", nat a.number), ("content", text a.content),
      ("id", text a.id), ("ignore", .bool a.ignored)]
  | .notice n => [("info", n.record)]
  | .unrecognized _ => []

def record (l : LogLine) : Json :=
  object <|
    [("idx", int l.idx), ("type", text l.content.label), ("raw", text l.raw)] ++
    contentMembers l.content

def records (lines : List LogLine) : Json := list (lines.map record)

end LogLine

namespace Cell

def record (c : Cell) : Json :=
  object <|
    [("value", text c.value), ("effect", text c.effect.label)] ++
    (c.previous.toList.map fun v : String => ("prev_value", text v))

end Cell

namespace State

def record (s : State) : Json :=
  object [("idx", int s.idx), ("pc", int s.pc), ("frame", nat s.frame),
    ("values", object (s.values.entries.map fun e => (e.1, e.2.record))),
    ("last_write", object (s.writers.entries.map fun e => (e.1, int e.2)))]

def records (states : List State) : Json := list (states.map record)

end State

namespace SourceMap

def record (m : SourceMap) : Json :=
  object [
    ("source_lines", object (m.sources.entries.map fun e => (e.1, e.2.line.record))),
    ("log_line_to_source", object (m.sourceOf.entries.map fun e => (toString e.1, text e.2))),
    ("source_to_log_lines", object (m.linesOf.entries.map fun e => (e.1, list (e.2.map int)))),
    ("file_range",
      object (m.ranges.entries.map fun e => (e.1, list [nat e.2.1, nat e.2.2])))]

end SourceMap

namespace Config

def record (c : Config) : Json :=
  object [("fold_global_func_calls", .bool c.foldCalls),
    ("merge_bare_state_exprs", .bool c.mergeBlocks), ("initial_context_value", text c.context),
    ("frame_base_value", text c.frameBase)]

end Config

namespace Analysis

def summaryRecord (a : Analysis) : Json :=
  object [("lines", nat a.lines.length), ("instructions", nat (a.count "INSTRUCTION")),
    ("source_lines", nat (a.count "SOURCE")), ("known_messages", nat (a.count "KNOWN_MESSAGE")),
    ("unrecognized", nat (a.count "UNRECOGNIZED")), ("source_ids", nat a.sourceMap.size),
    ("max_frame", nat a.maxFrame), ("last_ins_idx", int a.lastInstruction)]

end Analysis
end VerifierTrace
