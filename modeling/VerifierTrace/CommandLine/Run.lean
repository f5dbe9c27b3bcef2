import VerifierTrace.CommandLine.Answer
import VerifierTrace.Config.File
import VerifierTrace.Files.Home

/-!
# VerifierTrace.CommandLine.Run

Command lines carried out on files that are given as a tree, so that nothing here touches a disk.

`run` gives the exit code, the standard output, what is told about the work, and the tree with the
files that the command wrote. A command that is carried out exits with 0, a query that has no answer
with 1, everything else with 2.
-/

namespace VerifierTrace
namespace CommandLine

/-- What a command works with. -/
structure Surroundings where
  stdin : List Char
  files : FileTree
  homes : Homes
  platform : String

structure Outcome where
  exit : Nat
  stdout : String := ""
  told : List String := []
  misuse : Option String := none
  files : FileTree
  usage : Bool := false

inductive QueryFault where
  /-- The log has so many lines, and not the one that is asked about. -/
  | outOfRange (line : Int) (count : Nat)
  | emptySlot
  deriving DecidableEq, Repr

namespace QueryFault

def message : QueryFault → String
  | .outOfRange line count =>
    "line " ++ toString line ++ " out of range (log has " ++ toString count ++ " lines)"
  | .emptySlot => "empty storage-location id"

def code : QueryFault → Code
  | .outOfRange .. => .lineOutOfRange
  | .emptySlot => .emptySlotId

def toFault (f : QueryFault) : Fault := { kind := .query, message := f.message, code := f.code }

end QueryFault

/-- What is left blank though a command needs it. -/
inductive Blank where
  | line
  | slot
  | output
  deriving DecidableEq, Repr

namespace Blank

def message : Blank → String
  | .line => "'<=' not supported between instances of 'int' and 'list'"
  | .slot => "'list' object has no attribute 'strip'"
  | .output => "expected str, bytes or os.PathLike object, not list"

end Blank

inductive Failure where
  | query (fault : QueryFault)
  | blank (what : Blank)
  | config (fault : Config.LoadError)
  /-- A path starts in the home directory of an unknown user. -/
  | homeless
  | missing (what : String) (path : Path)
  | file (fault : FileFault) (path : Path)
  | numeral (fault : NumeralFault)

namespace Failure

def exit : Failure → Nat
  | .query _ => 1
  | _ => 2

/-- What is told about a failure that no command expects. -/
def unexpected (message : String) : String := "Unhandled exception: " ++ message

def message : Failure → String
  | .query fault => fault.toFault.text
  | .blank what => unexpected what.message
  | .config (.invalid fault) => fault.toFault.text
  | .config (.tooDeep part) => unexpected (Json.ReadError.tooDeep part).message
  | .homeless => unexpected "Could not determine home directory."
  | .missing what path => what ++ " not found: " ++ path.text
  | .file .notFound path => FileFault.notFound.message path
  | .file fault path => unexpected (fault.message path)
  | .numeral fault => unexpected fault.message

end Failure

/-- A result or a failure, and what is told on the way to it. -/
structure Told (α : Type) where
  events : List Event
  result : Except Failure α

namespace Told

variable {α β : Type}

def silent (result : Except Failure α) : Told α := ⟨[], result⟩

def andThen (t : Told α) (next : α → Told β) : Told β :=
  match t.result with
  | .error e => ⟨t.events, .error e⟩
  | .ok x =>
    let more := next x
    ⟨t.events ++ more.events, more.result⟩

def map (f : α → β) (t : Told α) : Told β := ⟨t.events, t.result.map f⟩

end Told

variable (s : Surroundings)

def pathOf (name : String) : Except Failure Path :=
  let path := Path.ofString name
  if path.user?.any fun user => user.toList.contains '\x00' then
    .error (.file .nullCharacter path)
  else match s.homes.expand? path with
    | none => .error .homeless
    | some path => .ok path

/-- The full path and the bytes of a file that a command reads; `what` says what it should hold. -/
def readInput (what name : String) : Except Failure (Path × List UInt8) :=
  match pathOf s name with
  | .error e => .error e
  | .ok path =>
    let full := s.files.resolve path
    match s.files.readRegular path with
    | .ok bytes => .ok (full, bytes)
    | .error .notFound => .error (.missing what full)
    | .error fault => .error (.file fault full)

/-- The lines of a log in a file or in the standard input. -/
def readLog (name : String) : Except Failure (List String) :=
  if name = "-" then .ok (Text.linesOf (String.ofList s.stdin))
  else
    match readInput s "verifier log" name with
    | .error e => .error e
    | .ok (_, bytes) =>
      .ok ((Text.lines (Text.unifyNewlines (Text.Utf8.decodeLossy bytes))).map String.ofList)

/-- The configuration in a file; the default configuration if no file is named. -/
def readConfig (name : String) : Told Config :=
  if name.isEmpty then .silent (.ok {})
  else
    match readInput s "config" name with
    | .error e => .silent (.error e)
    | .ok (path, bytes) =>
      match Config.ofBytes path.text bytes with
      | .error e => .silent (.error (.config e))
      | .ok config => ⟨config.fileEvents path.text, .ok config⟩

/-- The configuration with what the switches turn off. -/
def adjust (source : Source) (config : Config) : Config :=
  { config with
    mergeBlocks := config.mergeBlocks && !source.keepBlocks
    foldCalls := config.foldCalls && !source.keepCalls }

def analyze (source : Source) : Told Analysis :=
  (Told.silent (readLog s source.log)).andThen fun raws =>
  (readConfig s source.config).andThen fun config =>
    let config := adjust source config
    ⟨Analysis.events config raws, (Analysis.run config raws).mapError .numeral⟩

def outOfRange (a : Analysis) (line : Int) : Failure := .query (.outOfRange line a.lines.length)

/-- A line that is asked for, if it is not left blank. -/
def lineOf (line : Option Int) : Except Failure Int :=
  match line with
  | none => .error (.blank .line)
  | some line => .ok line

def stateAt (a : Analysis) (line : Int) : Except Failure State :=
  match History.at? a.states line with
  | none => .error (outOfRange a line)
  | some state => .ok state

def originAt (a : Analysis) (line : Int) (slot : Slot) (exact : Bool) : Told Origin :=
  match History.at? a.lines line with
  | none => .silent (.error (outOfRange a line))
  | some _ =>
    ⟨if exact then [] else Analysis.selectionEvents a.history line slot,
      .ok (Origin.ofAnalysis a line slot exact)⟩

def slotOf (name : Option String) : Except Failure Slot :=
  match name with
  | none => .error (.blank .slot)
  | some name =>
    let name := String.ofList (Text.trim name.toList)
    let slot := if name = Slot.memory then name else Slot.ofKey name
    if slot.isEmpty then .error (.query .emptySlot) else .ok slot

def answer (source : Source) (format : Format) : Query → Told String
  | .lines => (analyze s source).map fun a => Answer.lines a format
  | .sources => (analyze s source).map fun a => Answer.sources a.sourceMap format
  | .states .unset => (analyze s source).map fun a => Answer.states a.states format
  | .states line =>
    (analyze s source).andThen fun a =>
    (Told.silent (lineOf line.value?)).andThen fun line =>
    (Told.silent (stateAt a line)).map fun state => Answer.states [state] format
  | .origin line slot exact =>
    (Told.silent (slotOf slot)).andThen fun slot =>
    (analyze s source).andThen fun a =>
    (Told.silent (lineOf line)).andThen fun line =>
    (originAt a line slot exact).map fun origin => Answer.origin a origin format

def perform : Task → Told String
  | .analyze source query format => answer s source format query
  | .info => .silent (.ok (About.record s.platform).indented)

/-- The rank of the least level that is told about. -/
def threshold (verbosity : Nat) : Nat := Level.warning.rank - verbosity

def tell (verbosity : Nat) (events : List Event) : List String :=
  (events.filter fun e => decide (threshold verbosity ≤ e.level.rank)).map Event.commandText

def save (name text : String) : Except Failure FileTree :=
  match pathOf s name with
  | .error e => .error e
  | .ok path =>
    match s.files.writeDeep path text.toUTF8.toList with
    | .error (fault, path) => .error (.file fault path)
    | .ok files => .ok files

/-- The outcome of a result: it goes to the standard output, or to a file. -/
def deliver (output : Setting String) (text : String) (told : List String) :
    Except Failure Outcome :=
  let text := Text.closed text
  match output with
  | .blank => .error (.blank .output)
  | .unset | .to "-" => .ok { exit := 0, stdout := text, told := told, files := s.files }
  | .to name => (save s name text).map fun files => { exit := 0, told := told, files := files }

def giveUp (e : Failure) (told : List String) : Outcome :=
  { exit := e.exit, told := told ++ [(Event.failed e.message).commandText], files := s.files }

def fulfil (r : Request) : Outcome :=
  let told := perform s r.task
  let lines := tell r.verbosity told.events
  match told.result with
  | .error e => giveUp s e lines
  | .ok text =>
    match deliver s r.output text lines with
    | .error e => giveUp s e lines
    | .ok outcome => outcome

/-- The outcome of a command line that makes no request. -/
def halt : Halt → Outcome
  | .misuse program why =>
    { exit := 2, misuse := some (program ++ ": error: " ++ why.message), files := s.files }
  | .version =>
    { exit := 0, stdout := About.program ++ " " ++ About.version ++ "\n", files := s.files }
  | .help => { exit := 0, files := s.files, usage := true }

def run (args : List String) : Outcome :=
  match Request.read args with
  | .error h => halt s h
  | .ok none => { exit := 2, files := s.files, usage := true }
  | .ok (some request) => fulfil s request

end CommandLine
end VerifierTrace
