import VerifierTrace.About
import VerifierTrace.CommandLine.Grammar

/-!
# VerifierTrace.CommandLine.Request

What a user asks for on the command line.

The program has five commands. Four of them analyze a log: `parse` shows its lines, `states` the
machine after each line, `deps` the lines that a value came from, and `sources` the source map.
`info` shows what the program says about itself.
-/

namespace VerifierTrace
namespace CommandLine

inductive Format where
  | summary
  | json
  | sexp
  deriving DecidableEq, Repr

namespace Format

def name : Format → String
  | .summary => "summary"
  | .json => "json"
  | .sexp => "sexp"

/-- All formats; the first one is written unless another is asked for. -/
def all : List Format := [.summary, .json, .sexp]

def ofName? (name : String) : Option Format := all.find? fun f => f.name == name

end Format

structure Source where
  /-- The file with the log; a hyphen stands for the standard input. -/
  log : String
  /-- The file with the configuration; empty if there is none. -/
  config : String
  keepBlocks : Bool
  keepCalls : Bool
  deriving DecidableEq, Repr

inductive Query where
  | lines
  /-- The states after all lines, or after one. -/
  | states (line : Setting Int)
  /-- The lines that a value came from; `exact` traces the slot as given. The line or the slot may
  be left blank. -/
  | origin (line : Option Int) (slot : Option String) (exact : Bool)
  | sources
  deriving DecidableEq, Repr

inductive Task where
  | analyze (source : Source) (query : Query) (format : Format)
  | info
  deriving DecidableEq, Repr

/-- A request: how much is told about the work, the file for the result, and the task. -/
structure Request where
  verbosity : Nat
  /-- Where the result goes; the standard output unless a file is named. -/
  output : Setting String
  task : Task
  deriving DecidableEq, Repr

namespace Request

def readsStdin (r : Request) : Bool :=
  match r.task with
  | .analyze source _ _ => source.log == "-"
  | .info => false

def fileNames (r : Request) : List String :=
  let inputs := match r.task with
    | .analyze source _ _ => [source.log, source.config]
    | .info => []
  inputs ++ r.output.value?.toList

/-! ## Grammars -/

def helpOption : OptionSpec := ⟨"help", ["-h", "--help"], .help, false⟩

def switch (name : String) : OptionSpec := ⟨name, ["--" ++ name], .switch, false⟩

def textOption (spellings : List String) (name : String) : OptionSpec :=
  ⟨name, spellings ++ ["--" ++ name], .value fun _ => none, false⟩

def checkLine (text : String) : Option ValueFault :=
  match Numeral.decimal? text.toList with
  | some _ => none
  | none => some (.noInteger text)

def checkFormat (text : String) : Option ValueFault :=
  ValueFault.ofChoice? (Format.all.map Format.name) text

def outputOption : OptionSpec := textOption ["-o"] "output"

def formatOption : OptionSpec := ⟨"format", ["-f", "--format"], .value checkFormat, false⟩

def lineOption (required : Bool) : OptionSpec := ⟨"line", ["--line"], .value checkLine, required⟩

def analysisOptions : List OptionSpec :=
  [helpOption, textOption [] "config", switch "no-merge-bare-state", switch "no-fold-global-funcs",
    outputOption, formatOption]

def commandOptions : List (String × List OptionSpec) :=
  [("parse", analysisOptions),
    ("states", analysisOptions ++ [lineOption false]),
    ("deps", analysisOptions ++
      [lineOption true, { textOption [] "slot" with required := true }, switch "no-retarget"]),
    ("sources", analysisOptions),
    ("info", [helpOption, outputOption])]

def topGrammar : Grammar where
  program := About.program
  options := [helpOption, ⟨"version", ["--version"], .version, false⟩,
    ⟨"verbose", ["-v", "--verbose"], .switch, false⟩]
  positional := .command (commandOptions.map Prod.fst)

def usage : String :=
  "usage: " ++ About.program ++ " [-h] [--version] [-v] <command> ...\ncommands: " ++
    String.intercalate ", " (commandOptions.map Prod.fst) ++ "\n"

/-- The grammar of what follows the name of a command. -/
def commandGrammar (name : String) : Grammar where
  program := About.program ++ " " ++ name
  options := (commandOptions.lookup name).getD []
  positional := if name = "info" then .none else .argument "log"

/-! ## Reading -/

def sourceOf (v : Grammar.Values) : Source where
  log := (v.positional.bind List.head?).getD ""
  config := (v.setting "config").value?.getD ""
  keepBlocks := v.has "no-merge-bare-state"
  keepCalls := v.has "no-fold-global-funcs"

def lineOf (v : Grammar.Values) : Setting Int :=
  (v.setting "line").map fun text => (Numeral.decimal? text.toList).getD 0

def taskOf (name : String) (v : Grammar.Values) : Task :=
  let format := ((v.setting "format").value?.bind Format.ofName?).getD .summary
  let analyze (query : Query) : Task := .analyze (sourceOf v) query format
  if name = "parse" then analyze .lines
  else if name = "states" then analyze (.states (lineOf v))
  else if name = "deps" then
    analyze (.origin (lineOf v).value? (v.setting "slot").value? (v.has "no-retarget"))
  else if name = "sources" then analyze .sources
  else .info

def checkExtras (extras : List String) : Except Halt Unit :=
  if extras.isEmpty then .ok ()
  else .error (topGrammar.misuse (.unrecognized extras))

/-- The request that a command line makes; `none` if it names no command. -/
def read (args : List String) : Except Halt (Option Request) := do
  let top ← topGrammar.parse args
  match top.positional with
  | some (name :: rest) =>
    let own ← (commandGrammar name).parse rest
    checkExtras (top.extras ++ own.extras)
    return some ⟨top.count "verbose", own.setting "output", taskOf name own⟩
  | _ =>
    checkExtras top.extras
    return none

end Request
end CommandLine
end VerifierTrace
