import VerifierTrace.Numeral.Spelling
import VerifierTrace.Text.Quoted

/-!
# VerifierTrace.CommandLine.Grammar

Command lines by their grammar: options with and without a value, one argument, and one level of
commands with grammars of their own.

Arguments are classified first. An argument that starts with a hyphen is an option, unless it is a
negative number or holds a space; after `--` there are no more options. A long option may be cut
short as long as it stays unambiguous, a value may be joined to it by `=`, and short options may be
written together, the last one with its value. What no grammar takes is left over.

* `Grammar.classify`: the arguments as tokens.
* `Grammar.parse`: the values of options and of the argument, and what is left over.
-/

namespace VerifierTrace
namespace CommandLine

/-- What is said about something that may be set. -/
inductive Setting (α : Type) where
  | unset
  | blank
  | to (value : α)
  deriving DecidableEq, Repr

namespace Setting

variable {α β : Type}

def value? : Setting α → Option α
  | .to value => some value
  | _ => none

def map (f : α → β) : Setting α → Setting β
  | .unset => .unset
  | .blank => .blank
  | .to value => .to (f value)

end Setting

inductive ValueFault where
  | noInteger (text : String)
  | noChoice (text : String) (choices : List String)
  deriving DecidableEq, Repr

namespace ValueFault

def message : ValueFault → String
  | .noInteger text => "invalid int value: " ++ Text.quote text
  | .noChoice text choices =>
    "invalid choice: " ++ Text.quote text ++ " (choose from " ++
      String.intercalate ", " (choices.map Text.quote) ++ ")"

def ofChoice? (choices : List String) (text : String) : Option ValueFault :=
  if choices.contains text then none else some (.noChoice text choices)

end ValueFault

inductive OptionKind where
  /-- It is counted or switched on. -/
  | switch
  | value (check : String → Option ValueFault)
  | version
  | help

structure OptionSpec where
  /-- The name by which the value is kept. -/
  key : String
  spellings : List String
  kind : OptionKind
  required : Bool := false

namespace OptionSpec

/-- All spellings, as messages show them. -/
def display (o : OptionSpec) : String := String.intercalate "/" o.spellings

end OptionSpec

inductive Positional where
  | none
  | argument (name : String)
  /-- One of the commands, followed by its own command line; it may be missing. -/
  | command (names : List String)

structure Grammar where
  /-- What precedes messages. -/
  program : String
  options : List OptionSpec
  positional : Positional

/-- Why a command line does not fit a grammar. Options are named by all their spellings. -/
inductive Misuse where
  /-- An argument is cut short from several spellings. -/
  | ambiguous (arg : String) (spellings : List String)
  | unexpectedValue (option value : String)
  | missingValue (option : String)
  | badValue (argument : String) (fault : ValueFault)
  | missing (arguments : List String)
  | unrecognized (args : List String)
  deriving DecidableEq, Repr

namespace Misuse

def message : Misuse → String
  | .ambiguous arg spellings =>
    "ambiguous option: " ++ arg ++ " could match " ++ String.intercalate ", " spellings
  | .unexpectedValue option value =>
    "argument " ++ option ++ ": ignored explicit argument " ++ Text.quote value
  | .missingValue option => "argument " ++ option ++ ": expected one argument"
  | .badValue argument fault => "argument " ++ argument ++ ": " ++ fault.message
  | .missing arguments =>
    "the following arguments are required: " ++ String.intercalate ", " arguments
  | .unrecognized args => "unrecognized arguments: " ++ String.intercalate " " args

end Misuse

/-- Why a command line is not carried out. -/
inductive Halt where
  | misuse (program : String) (why : Misuse)
  | version
  | help
  deriving DecidableEq, Repr

/-- An option as found in an argument: which one, by which spelling, and with which text joined to
it, by an equals sign or, behind a short spelling, directly. -/
structure Found where
  option : OptionSpec
  spelling : String
  joined : Option String

inductive Token where
  | argument (text : String)
  /-- The first `--`. -/
  | separator
  | option (text : String) (found : Option Found)

namespace Token

def text : Token → String
  | .argument text => text
  | .separator => "--"
  | .option text _ => text

def isOption : Token → Bool
  | .option .. => true
  | _ => false

end Token

namespace Grammar

variable (g : Grammar)

def misuse (why : Misuse) : Halt := .misuse g.program why

def option? (spelling : String) : Option OptionSpec :=
  g.options.find? fun o => o.spellings.contains spelling

def spellings : List (String × OptionSpec) :=
  g.options.flatMap fun o => o.spellings.map fun s => (s, o)

/-- A text before and after its first equals sign. -/
def splitSign (cs : List Char) : Option (String × String) :=
  match cs.dropWhile (· ≠ '=') with
  | [] => none
  | _ :: rest => some (String.ofList (cs.takeWhile (· ≠ '=')), String.ofList rest)

/-- Long options that an argument may be cut short from. -/
def longCandidates (arg : String) : List Found :=
  let (stem, joined) := match splitSign arg.toList with
    | some (stem, value) => (stem, some value)
    | none => (arg, none)
  (g.spellings.filter fun s => stem.toList.isPrefixOf s.1.toList).map fun s =>
    ⟨s.2, s.1, joined⟩

/-- Options that an argument with one hyphen may stand for: the short option it begins with, which
leaves the rest as its value, and options that it is cut short from. -/
def shortCandidates (arg : String) : List Found :=
  let stem := String.ofList (arg.toList.take 2)
  g.spellings.filterMap fun s =>
    if s.1 = stem then some ⟨s.2, s.1, some (String.ofList (arg.toList.drop 2))⟩
    else if arg.toList.isPrefixOf s.1.toList then some ⟨s.2, s.1, none⟩
    else none

def candidates (arg : String) : List Found :=
  if ['-', '-'].isPrefixOf arg.toList then g.longCandidates arg else g.shortCandidates arg

/-- Whether a text is digits of any script; a line feed may follow them. -/
def isDigits (cs : List Char) : Bool :=
  let isDigit (c : Char) : Bool := (Numeral.decimalDigit? c).isSome
  let rest := cs.dropWhile isDigit
  (cs.head?.any isDigit) && (rest.isEmpty || rest == ['\n'])

/-- Whether a text spells a negative number, with or without a fraction. -/
def isNegativeNumber (arg : String) : Bool :=
  match arg.toList with
  | '-' :: body =>
    isDigits body ||
      match body.dropWhile fun c => (Numeral.decimalDigit? c).isSome with
      | '.' :: fraction => isDigits fraction
      | _ => false
  | _ => false

/-- An argument that starts with a hyphen and is no spelling of an option as a whole. -/
def classifyOther (arg : String) : Except Halt Token :=
  match g.candidates arg with
  | _ :: _ :: _ => .error (g.misuse (.ambiguous arg ((g.candidates arg).map Found.spelling)))
  | [found] => .ok (.option arg (some found))
  | [] =>
    if isNegativeNumber arg || arg.toList.contains ' ' then .ok (.argument arg)
    else .ok (.option arg none)

def classifyOne (arg : String) : Except Halt Token :=
  match arg.toList with
  | '-' :: _ :: _ =>
    match g.option? arg with
    | some o => .ok (.option arg (some ⟨o, arg, none⟩))
    | none =>
      match (splitSign arg.toList).bind fun (stem, value) =>
          (g.option? stem).map fun o => Found.mk o stem (some value) with
      | some found => .ok (.option arg (some found))
      | none => g.classifyOther arg
  | _ => .ok (.argument arg)

/-- The arguments as tokens. -/
def classify : List String → Except Halt (List Token)
  | [] => .ok []
  | arg :: more =>
    if arg = "--" then .ok (.separator :: more.map .argument)
    else match g.classifyOne arg with
      | .error h => .error h
      | .ok token => (classify more).map fun tokens => token :: tokens

structure Values where
  /-- Options in order, with their values. Switches have none, nor has an option that is left
  blank. -/
  options : List (String × Option String)
  /-- The argument, or the command and its own command line. -/
  positional : Option (List String)
  /-- Arguments that fit nowhere. -/
  extras : List String
  deriving DecidableEq, Repr

namespace Values

def empty : Values := ⟨[], none, []⟩

/-- What is said about an option; of several occurrences the last counts. -/
def setting (v : Values) (key : String) : Setting String :=
  match v.options.reverse.find? fun o => o.1 == key with
  | none => .unset
  | some (_, none) => .blank
  | some (_, some value) => .to value

def count (v : Values) (key : String) : Nat := (v.options.filter fun o => o.1 == key).length

def has (v : Values) (key : String) : Bool := v.options.any fun o => o.1 == key

/-- The values with more arguments that fit nowhere. -/
def leave (v : Values) (extras : List String) : Values := { v with extras := v.extras ++ extras }

end Values

def act (v : Values) (o : OptionSpec) (value : Option String) : Except Halt Values :=
  match o.kind with
  | .version => .error .version
  | .help => .error .help
  | .switch => .ok { v with options := v.options ++ [(o.key, none)] }
  | .value check =>
    match value.bind check with
    | some fault => .error (g.misuse (.badValue o.display fault))
    | none => .ok { v with options := v.options ++ [(o.key, value)] }

def actAll (v : Values) : List (OptionSpec × Option String) → Except Halt Values
  | [] => .ok v
  | (o, value) :: more =>
    match g.act v o value with
    | .error h => .error h
    | .ok v => actAll v more

def takesValue (o : OptionSpec) : Bool :=
  match o.kind with
  | .value _ => true
  | _ => false

/-- What an argument with options comes to: options with their values, and the last option if its
value is still to come. -/
structure Group where
  options : List (OptionSpec × Option String)
  pending : Option OptionSpec

def readAlone (o : OptionSpec) : Group := if takesValue o then ⟨[], some o⟩ else ⟨[(o, none)], none⟩

/-- The value that a joined text is. The separator is none. -/
def joinedValue? (value : String) : Option String := if value = "--" then none else some value

/-- An option that a text is joined to. If the option is short and takes no value, the text is read
as the letters of more short options. -/
def readJoined (o : OptionSpec) (spelling : String) (text : List Char) : Except Halt Group :=
  let value := String.ofList text
  if takesValue o then .ok ⟨[(o, joinedValue? value)], none⟩
  else
    let ignored := g.misuse (.unexpectedValue o.display value)
    match text with
    | [] => .error ignored
    | letter :: rest =>
      let short := String.ofList ['-', letter]
      match g.option? short with
      | none => .error ignored
      | some next =>
        if ['-', '-'].isPrefixOf spelling.toList then .error ignored
        else
          let onward : Except Halt Group :=
            if rest.isEmpty then .ok (readAlone next) else readJoined next short rest
          onward.map fun group => { group with options := (o, none) :: group.options }

def readFound (f : Found) : Except Halt Group :=
  match f.joined with
  | some text => g.readJoined f.option f.spelling text.toList
  | none => .ok (readAlone f.option)

/-- Carries out options. If the value of the last one is still to come, the next argument is taken
for it. -/
def takeGroup (v : Values) (group : Group) (rest : List Token) :
    Except Halt (Values × List Token) :=
  match group.pending with
  | none => (g.actAll v group.options).map fun v => (v, rest)
  | some o =>
    match rest with
    | .argument value :: more =>
      (g.actAll v (group.options ++ [(o, some value)])).map fun v => (v, more)
    | _ => .error (g.misuse (.missingValue o.display))

def takeOption (v : Values) (text : String) (found : Option Found) (rest : List Token) :
    Except Halt (Values × List Token) :=
  match found with
  | none => .ok (v.leave [text], rest)
  | some f =>
    match g.readFound f with
    | .error h => .error h
    | .ok group => g.takeGroup v group rest

def awaitsPositional (v : Values) : Bool :=
  match g.positional with
  | .none => false
  | _ => v.positional.isNone

def isSeparator : Token → Bool
  | .separator => true
  | _ => false

/-- Takes the positional off the front of the tokens, with separators around it; `none` if it does
not stand there. A command takes all that follows. -/
def takePositional? (v : Values) (tokens : List Token) : Option (List String × List Token) :=
  if !g.awaitsPositional v then none
  else match g.positional, tokens.dropWhile isSeparator with
    | .argument _, .argument text :: rest => some ([text], rest.dropWhile isSeparator)
    | .command _, .argument _ :: _ => some (tokens.map Token.text, [])
    | _, _ => none

def checkPositional (taken : List String) : Except Halt Unit :=
  match g.positional, taken with
  | .command names, name :: _ =>
    match ValueFault.ofChoice? names name with
    | some fault => .error (g.misuse (.badValue "<command>" fault))
    | none => .ok ()
  | _, _ => .ok ()

/-- Takes the tokens in order. Before an option, arguments are taken as the positional if it is
still to come, and are left over otherwise. `fuel` bounds the number of tokens. -/
def take : Nat → Values → List Token → Except Halt Values
  | 0, v, _ => .ok v
  | fuel + 1, v, tokens =>
    match tokens with
    | [] => .ok v
    | .option text found :: rest =>
      match g.takeOption v text found rest with
      | .error h => .error h
      | .ok (v, rest) => take fuel v rest
    | _ =>
      match g.takePositional? v tokens with
      | some (taken, rest) =>
        match g.checkPositional taken with
        | .error h => .error h
        | .ok () => take fuel { v with positional := some taken } rest
      | none =>
        let before := tokens.takeWhile fun t => !t.isOption
        take fuel (v.leave (before.map Token.text)) (tokens.dropWhile fun t => !t.isOption)

/-- What must be given and is not. -/
def missing (v : Values) : List String :=
  (match g.positional with
    | .argument name => if v.positional.isNone then [name] else []
    | _ => []) ++
  ((g.options.filter fun o => o.required && !v.has o.key).map OptionSpec.display)

def parse (args : List String) : Except Halt Values :=
  match g.classify args with
  | .error h => .error h
  | .ok tokens =>
    match g.take (tokens.length + 1) .empty tokens with
    | .error h => .error h
    | .ok v =>
      match g.missing v with
      | [] => .ok v
      | names => .error (g.misuse (.missing names))

end Grammar
end CommandLine
end VerifierTrace
