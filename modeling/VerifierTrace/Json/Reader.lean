import VerifierTrace.Json.Basic
import VerifierTrace.Table

/-!
# VerifierTrace.Json.Reader

Reading JSON documents, with the place and the cause of the first flaw.

The words `NaN`, `Infinity` and `-Infinity` count as numbers. Of several members of an object with
one name the last counts, in the place of the first. Lists and objects lie in each other at most
`Json.maxDepth` deep.

Readers take the text that is left and give the text after what they read. A flaw is placed by how
much text is left there; `Json.read` turns that into a position.
-/

namespace VerifierTrace
namespace Json

inductive Flaw.Cause where
  | byteOrderMark
  | value
  | propertyName
  | colon
  | comma
  | extraData
  | unterminated
  | controlCharacter
  | escape
  | unicodeEscape
  deriving DecidableEq, Repr

namespace Flaw.Cause

def message : Flaw.Cause → String
  | .byteOrderMark => "Unexpected UTF-8 BOM (decode using utf-8-sig)"
  | .value => "Expecting value"
  | .propertyName => "Expecting property name enclosed in double quotes"
  | .colon => "Expecting ':' delimiter"
  | .comma => "Expecting ',' delimiter"
  | .extraData => "Extra data"
  | .unterminated => "Unterminated string starting at"
  | .controlCharacter => "Invalid control character at"
  | .escape => "Invalid \\escape"
  | .unicodeEscape => "Invalid \\uXXXX escape"

end Flaw.Cause

/-- The parts of a document that have parts themselves. -/
inductive Nest where
  | list
  | object
  deriving DecidableEq, Repr

namespace Nest

def name : Nest → String
  | .list => "array"
  | .object => "object"

end Nest

inductive Stop where
  /-- A cause, and the length of the text that is left where it was found. -/
  | flaw (cause : Flaw.Cause) (left : Nat)
  | numeral (fault : NumeralFault)
  | tooDeep (part : Nest)
  deriving DecidableEq, Repr

/-- How deep lists and objects may lie in each other. -/
def maxDepth : Nat := 988

def isSpace (c : Char) : Bool := c = ' ' || c = '\t' || c = '\n' || c = '\r'

def skipSpaces (cs : List Char) : List Char := cs.dropWhile isSpace

def hexDigit? (c : Char) : Option Nat :=
  if c.isDigit then some (c.toNat - '0'.toNat)
  else if 'a' ≤ c && c ≤ 'f' then some (c.toNat - 'a'.toNat + 10)
  else if 'A' ≤ c && c ≤ 'F' then some (c.toNat - 'A'.toNat + 10)
  else none

def hexUnit? (a b c d : Char) : Option Nat := do
  return (((← hexDigit? a) * 16 + (← hexDigit? b)) * 16 + (← hexDigit? c)) * 16 + (← hexDigit? d)

/-- What one UTF-16 unit stands for. -/
def ofUnit (n : Nat) : Point :=
  match Half.ofUnit? n with
  | some h => .half h
  | none => .char (Char.ofNat n)

/-- The character of two UTF-16 units, if they are a pair. -/
def ofPair? (first second : Nat) : Option Char := do
  let first ← Half.ofUnit? first
  let second ← Half.ofUnit? second
  if first.isFirst && !second.isFirst then some (Half.pair first second) else none

/-- The character that a letter stands for behind a backslash. -/
def unescape? : Char → Option Char
  | '"' => some '"'
  | '\\' => some '\\'
  | '/' => some '/'
  | 'b' => some '\x08'
  | 'f' => some '\x0c'
  | 'n' => some '\n'
  | 'r' => some '\r'
  | 't' => some '\t'
  | _ => none

/-- What an escape stands for whose `\u` has been read, and the text after it. A second escape is
taken along if the two are a pair. The text must go on behind the four digits. -/
def readUnit (cs : List Char) : Except Stop (Point × List Char) :=
  let bad := Except.error (.flaw .unicodeEscape (cs.length + 1))
  match cs with
  | a :: b :: c :: d :: rest =>
    if rest.isEmpty then bad
    else match hexUnit? a b c d with
      | none => bad
      | some unit =>
        match rest with
        | '\\' :: 'u' :: a' :: b' :: c' :: d' :: more =>
          if (Half.ofUnit? unit).any Half.isFirst && !more.isEmpty then
            match hexUnit? a' b' c' d' with
            | none => .error (.flaw .unicodeEscape (rest.length - 1))
            | some next =>
              match ofPair? unit next with
              | some c => .ok (.char c, more)
              | none => .ok (ofUnit unit, rest)
          else .ok (ofUnit unit, rest)
        | _ => .ok (ofUnit unit, rest)
  | _ => bad

/-- The points of a text up to its closing quote. `start` is what was left at its opening quote. -/
def readPoints (start : Nat) : Nat → List Char → Except Stop (List Point × List Char)
  | 0, _ => .error (.flaw .unterminated start)
  | fuel + 1, cs =>
    match cs with
    | [] => .error (.flaw .unterminated start)
    | '"' :: rest => .ok ([], rest)
    | ['\\'] => .error (.flaw .unterminated start)
    | '\\' :: 'u' :: rest =>
      match readUnit rest with
      | .error e => .error e
      | .ok (p, rest) => (readPoints start fuel rest).map fun (more, rest) => (p :: more, rest)
    | '\\' :: c :: rest =>
      match unescape? c with
      | none => .error (.flaw .escape (rest.length + 2))
      | some c => (readPoints start fuel rest).map fun (more, rest) => (.char c :: more, rest)
    | c :: rest =>
      if c.toNat < 32 then .error (.flaw .controlCharacter (rest.length + 1))
      else (readPoints start fuel rest).map fun (more, rest) => (.char c :: more, rest)

/-- The text behind an opening quote, and what follows it. -/
def readText (rest : List Char) : Except Stop (WideText × List Char) :=
  (readPoints (rest.length + 1) (rest.length + 1) rest).map fun (ps, rest) =>
    (WideText.ofPoints ps, rest)

/-- The digits of an integer: a single zero, or digits that start with none. -/
def wholeDigits? (cs : List Char) : Option (List Char × List Char) :=
  match cs with
  | '0' :: rest => some (['0'], rest)
  | _ => Decimal.run? cs

/-- A point and digits, and the text after them. -/
def fraction (cs : List Char) : List Char × List Char :=
  match cs with
  | '.' :: rest =>
    match Decimal.run? rest with
    | some (digits, more) => ('.' :: digits, more)
    | none => ([], cs)
  | _ => ([], cs)

/-- The mark of an exponent, its sign and digits, and the text after them. -/
def exponent (cs : List Char) : List Char × List Char :=
  match cs with
  | e :: rest =>
    if e = 'e' ∨ e = 'E' then
      let (sign, body) := match rest with
        | '+' :: more => (['+'], more)
        | '-' :: more => (['-'], more)
        | _ => ([], rest)
      match Decimal.run? body with
      | some (digits, more) => (e :: sign ++ digits, more)
      | none => ([], cs)
    else ([], cs)
  | [] => ([], [])

def readNumber (cs : List Char) : Except Stop (Json × List Char) :=
  let (negative, body) := match cs with
    | '-' :: rest => (true, rest)
    | _ => (false, cs)
  match wholeDigits? body with
  | none => .error (.flaw .value cs.length)
  | some (digits, rest) =>
    let (point, rest) := fraction rest
    let (power, rest) := exponent rest
    if point.isEmpty && power.isEmpty then
      match Decimal.readSigned negative digits with
      | .error e => .error (.numeral e)
      | .ok z => .ok (.int z, rest)
    else
      let sign := if negative then ['-'] else []
      .ok (.real (String.ofList (sign ++ digits ++ point ++ power)), rest)

/-- A word or a number, and the text after it. -/
def readScalar (cs : List Char) : Except Stop (Json × List Char) :=
  match cs with
  | 'n' :: 'u' :: 'l' :: 'l' :: rest => .ok (.null, rest)
  | 't' :: 'r' :: 'u' :: 'e' :: rest => .ok (.bool true, rest)
  | 'f' :: 'a' :: 'l' :: 's' :: 'e' :: rest => .ok (.bool false, rest)
  | 'N' :: 'a' :: 'N' :: rest => .ok (.real "NaN", rest)
  | 'I' :: 'n' :: 'f' :: 'i' :: 'n' :: 'i' :: 't' :: 'y' :: rest => .ok (.real "Infinity", rest)
  | '-' :: 'I' :: 'n' :: 'f' :: 'i' :: 'n' :: 'i' :: 't' :: 'y' :: rest =>
    .ok (.real "-Infinity", rest)
  | _ => readNumber cs

mutual

/-- A document at the front of a text. `depth` is how much deeper lists and objects may lie in it.
`fuel` bounds the number of steps down; of two of them at least one takes a character. -/
def readValue (depth fuel : Nat) (cs : List Char) : Except Stop (Json × List Char) :=
  match fuel with
  | 0 => .error (.flaw .value cs.length)
  | fuel + 1 =>
    match cs with
    | '"' :: rest => (readText rest).map fun (s, rest) => (.text s, rest)
    | '[' :: rest =>
      match depth with
      | 0 => .error (.tooDeep .list)
      | depth + 1 =>
        match skipSpaces rest with
        | ']' :: rest => .ok (.list [], rest)
        | rest => (readItems depth fuel rest).map fun (items, rest) => (.list items, rest)
    | '{' :: rest =>
      match depth with
      | 0 => .error (.tooDeep .object)
      | depth + 1 =>
        match skipSpaces rest with
        | '}' :: rest => .ok (.mapping [], rest)
        | rest =>
          (readMembers depth fuel rest).map fun (members, rest) =>
            (.mapping (Table.ofList members).entries, rest)
    | _ => readScalar cs

/-- Items up to a closing bracket. -/
def readItems (depth fuel : Nat) (cs : List Char) : Except Stop (List Json × List Char) :=
  match fuel with
  | 0 => .error (.flaw .value cs.length)
  | fuel + 1 =>
    match readValue depth fuel cs with
    | .error e => .error e
    | .ok (item, rest) =>
      match skipSpaces rest with
      | ']' :: rest => .ok ([item], rest)
      | ',' :: rest =>
        (readItems depth fuel (skipSpaces rest)).map fun (items, rest) => (item :: items, rest)
      | rest => .error (.flaw .comma rest.length)

def readMembers (depth fuel : Nat) (cs : List Char) :
    Except Stop (List (WideText × Json) × List Char) :=
  match fuel with
  | 0 => .error (.flaw .value cs.length)
  | fuel + 1 =>
    match cs with
    | '"' :: rest =>
      match readText rest with
      | .error e => .error e
      | .ok (name, rest) =>
        match skipSpaces rest with
        | ':' :: rest =>
          match readValue depth fuel (skipSpaces rest) with
          | .error e => .error e
          | .ok (value, rest) =>
            match skipSpaces rest with
            | '}' :: rest => .ok ([(name, value)], rest)
            | ',' :: rest =>
              (readMembers depth fuel (skipSpaces rest)).map fun (members, rest) =>
                ((name, value) :: members, rest)
            | rest => .error (.flaw .comma rest.length)
        | rest => .error (.flaw .colon rest.length)
    | _ => .error (.flaw .propertyName cs.length)

end

/-- A document that takes up the whole text but for white space. -/
def readWhole (cs : List Char) : Except Stop Json :=
  match cs with
  | '\uFEFF' :: _ => .error (.flaw .byteOrderMark cs.length)
  | _ =>
    match readValue maxDepth (2 * cs.length + 2) (skipSpaces cs) with
    | .error e => .error e
    | .ok (j, rest) =>
      match skipSpaces rest with
      | [] => .ok j
      | rest => .error (.flaw .extraData rest.length)

inductive ReadError where
  /-- A cause, and the position in the text where it was found. -/
  | flaw (cause : Flaw.Cause) (document : List Char) (position : Nat)
  | numeral (fault : NumeralFault)
  | tooDeep (part : Nest)
  deriving DecidableEq, Repr

namespace ReadError

/-- The cause with line, column and position; lines and columns count from one. -/
def message : ReadError → String
  | .flaw cause document position =>
    let before := document.take position
    let line := before.count '\n' + 1
    let column := (before.reverse.takeWhile (· ≠ '\n')).length + 1
    cause.message ++ ": line " ++ toString line ++ " column " ++ toString column ++ " (char " ++
      toString position ++ ")"
  | .numeral fault => fault.message
  | .tooDeep part =>
    "maximum recursion depth exceeded while decoding a JSON " ++ part.name ++
      " from a unicode string"

end ReadError

def read (cs : List Char) : Except ReadError Json :=
  match readWhole cs with
  | .ok j => .ok j
  | .error (.flaw cause left) => .error (.flaw cause cs (cs.length - left))
  | .error (.numeral fault) => .error (.numeral fault)
  | .error (.tooDeep part) => .error (.tooDeep part)

end Json
end VerifierTrace
