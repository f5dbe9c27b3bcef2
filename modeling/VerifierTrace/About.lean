import VerifierTrace.Json.Basic

/-!
# VerifierTrace.About

What the program says about itself: its name and version, its parts, and the names that each part
offers, all by their names in its output.
-/

namespace VerifierTrace
namespace About

def program : String := "bpfvlog"

def version : String := "0.1.0"

/-- The parts of the program, each with the names that it offers. -/
def parts : List (String × List String) :=
  [("errors", ["VlogError", "LineParseError", "OperandParseError", "InstructionParseError",
      "ConfigError", "QueryError", "VlogErrorCodes"]),
    ("instructions", ["Opcode", "BpfOperand", "OperandType", "BpfInstructionKind", "BpfJmpKind",
      "AluInstruction", "AddrSpaceCastInstruction", "ExitInstruction", "GotoInstruction",
      "ConditionalJmpInstruction", "HelperCallInstruction", "SubprogramCallInstruction"]),
    ("state_exprs", ["StateExpr", "parse_state_exprs", "parse_bare_state_exprs"]),
    ("line_parser", ["ParsedLineType", "UnrecognizedLine", "InstructionLine", "SourceLine",
      "KnownMessageLine", "GlobalFuncValidInfo", "StateExprsInfo", "parse_line"]),
    ("source_map", ["SourceMap", "SourceMapBuilder"]),
    ("simulator", ["Effect", "SlotValue", "MachineState", "StateSimulator", "initial_state"]),
    ("dependencies", ["DependencyResolver"]),
    ("config", ["AnalysisConfig", "load_config"]),
    ("analysis", ["VerifierLogState", "process_raw_lines", "process_text"]),
    ("export", ["dumps_lines", "dumps_states", "dumps_source_map"])]

def partNames : List String :=
  (parts.map Prod.fst).mergeSort fun a b => decide (a ≤ b)

/-- All names: those of each part and then the part's own, then the program's. -/
def exports : List String :=
  (parts.flatMap fun p => p.2 ++ [p.1]) ++ ["list_submodules", "package_info", "__version__"]

def members : List (String × Json) :=
  [("package", .text program), ("version", .text version),
    ("loaded_submodules", Json.texts partNames), ("missing_submodules", Json.texts []),
    ("all_exports", Json.texts exports)]

/-- The record with the platform that the program runs on. -/
def record (platform : String) : Json :=
  .object (members.take 2 ++ [("python", .text platform)] ++ members.drop 2)

end About
end VerifierTrace
