import VerifierTrace.Numeral.Spelling
import VerifierTrace.Sexp.Basic
import VerifierTrace.Text.Quoted

/-!
# VerifierTrace.Sexp.Reader

Reading one S-expression back, as plain data: symbols become texts, except that `nil` is the empty
list, `t` is true, and what spells an integer is one.

Inside quotes, a backslash before a character that never needs one stays. A semicolon starts a
comment up to the end of the line. Square brackets are read like parentheses, each kind closed by
its own.

* `Sexp.read`: the one S-expression in a text, however deep.
* `Sexp.load`: the same, if lists lie in each other at most `Sexp.maxDepth` deep.
-/

namespace VerifierTrace

inductive Datum where
  | truth
  | text (s : String)
  | number (z : Int)
  | list (items : List Datum)

namespace Datum

mutual

def depth : Datum → Nat
  | .list items => depthOfItems items + 1
  | _ => 0

def depthOfItems : List Datum → Nat
  | [] => 0
  | x :: xs => max (depth x) (depthOfItems xs)

end

end Datum

namespace Sexp

inductive ReadError where
  /-- A list is not closed by the bracket that it needs; another character or none comes there. -/
  | unclosed (expected : Char) (found : Option Char)
  /-- A closing bracket that closes nothing, with the text from there on. -/
  | unopened (rest : List Char)
  /-- A text in quotes has no end, or a backslash comes last. -/
  | unterminated
  /-- There is no S-expression, or more than one. -/
  | notOne
  | tooDeep
  deriving DecidableEq, Repr

namespace ReadError

def message : ReadError → String
  | .unclosed expected found =>
    "Not enough closing brackets. Expected " ++ Text.quote (String.singleton expected) ++
      " to be the last letter in the sexp. Got: " ++
      match found with
      | some c => Text.quote (String.singleton c)
      | none => "None"
  | .unopened rest =>
    "Too many closing brackets. Expected no character left in the sexp. Got: " ++
      Text.quote (String.ofList rest)
  | .unterminated => "unterminated string"
  | .notOne => ""
  | .tooDeep => "maximum recursion depth exceeded"

end ReadError

/-- ASCII white space. -/
def isSpace (c : Char) : Bool := c = ' ' || (9 ≤ c.toNat && c.toNat ≤ 13)

def endsAtom (c : Char) : Bool := isSpace c || ['(', ')', '[', ']', '"', ';'].contains c

/-- The character that a character stands for behind a backslash in quotes. -/
def unescapeText (c : Char) : List Char :=
  if c = '\\' ∨ c = '"' then [c]
  else if c = 'n' then ['\n']
  else if c = 'r' then ['\r']
  else if c = 't' then ['\t']
  else if c = 'b' then ['\x08']
  else if c = 'f' then ['\x0c']
  else ['\\', c]

/-- The characters up to a closing quote, and the text after it. -/
def readText : List Char → Option (List Char × List Char)
  | [] => none
  | '"' :: rest => some ([], rest)
  | ['\\'] => none
  | '\\' :: c :: rest => (readText rest).map fun (more, rest) => (unescapeText c ++ more, rest)
  | c :: rest => (readText rest).map fun (more, rest) => (c :: more, rest)

def readAtom : List Char → Option (List Char × List Char)
  | [] => some ([], [])
  | ['\\'] => none
  | '\\' :: c :: rest =>
    (readAtom rest).map fun (more, rest) =>
      ((if isSpecial c then [c] else ['\\', c]) ++ more, rest)
  | c :: rest =>
    if endsAtom c then some ([], c :: rest)
    else (readAtom rest).map fun (more, rest) => (c :: more, rest)

def ofAtom (cs : List Char) : Datum :=
  if cs = ['n', 'i', 'l'] then .list []
  else if cs = ['t'] then .truth
  else match Numeral.decimal? cs with
    | some z => .number z
    | none => .text (String.ofList cs)

/-- The bracket that closes another. -/
def closing? : Char → Option Char
  | '(' => some ')'
  | '[' => some ']'
  | _ => none

/-- The S-expressions up to the end of the text or to a closing bracket, and the text from there
on. `fuel` bounds their number and depth. -/
def readItems : Nat → List Char → Except ReadError (List Datum × List Char)
  | 0, cs => .ok ([], cs)
  | _ + 1, [] => .ok ([], [])
  | fuel + 1, c :: rest =>
    if c = '"' then
      match readText rest with
      | none => .error .unterminated
      | some (s, rest) =>
        (readItems fuel rest).map fun (more, rest) => (.text (String.ofList s) :: more, rest)
    else if isSpace c then readItems fuel rest
    else if c = ';' then readItems fuel ((rest.dropWhile (· ≠ '\n')).drop 1)
    else if c = ')' ∨ c = ']' then .ok ([], c :: rest)
    else match closing? c with
      | some close =>
        match readItems fuel rest with
        | .error e => .error e
        | .ok (_, []) => .error (.unclosed close none)
        | .ok (items, d :: rest) =>
          if d = close then
            (readItems fuel rest).map fun (more, rest) => (.list items :: more, rest)
          else .error (.unclosed close (some d))
      | none =>
        match readAtom (c :: rest) with
        | none => .error .unterminated
        | some (atom, rest) =>
          (readItems fuel rest).map fun (more, rest) => (ofAtom atom :: more, rest)

def read (cs : List Char) : Except ReadError Datum :=
  match readItems (cs.length + 1) cs with
  | .error e => .error e
  | .ok ([datum], []) => .ok datum
  | .ok (_, []) => .error .notOne
  | .ok (_, rest) => .error (.unopened rest)

/-- How deep lists may lie in each other in data. -/
def maxDepth : Nat := 497

/-- How many brackets may be open at once. -/
def maxOpen : Nat := 991

/-- Whether more brackets are open at once than may be, before the end of the text or what cannot be
read. `free` is how many more may be opened, and `awaited` are the brackets that close those that
are open, the innermost first; `fuel` bounds the length of the text. -/
def overfull : Nat → Nat → List Char → List Char → Bool
  | 0, _, _, _ => false
  | _ + 1, _, _, [] => false
  | fuel + 1, free, awaited, c :: rest =>
    if c = '"' then
      match readText rest with
      | none => false
      | some (_, rest) => overfull fuel free awaited rest
    else if isSpace c then overfull fuel free awaited rest
    else if c = ';' then overfull fuel free awaited ((rest.dropWhile (· ≠ '\n')).drop 1)
    else if c = ')' ∨ c = ']' then
      match awaited with
      | [] => false
      | close :: outer => c = close && overfull fuel (free + 1) outer rest
    else match closing? c, free with
      | some _, 0 => true
      | some close, free + 1 => overfull fuel free (close :: awaited) rest
      | none, _ =>
        match readAtom (c :: rest) with
        | none => false
        | some (_, rest) => overfull fuel free awaited rest

/-- The one S-expression in a text, if its lists do not lie too deep in each other. -/
def load (cs : List Char) : Except ReadError Datum :=
  if overfull (cs.length + 1) maxOpen [] cs then .error .tooDeep
  else match read cs with
    | .error e => .error e
    | .ok datum => if maxDepth < datum.depth then .error .tooDeep else .ok datum

mutual

/-- What is left of an S-expression if it is read back: symbols as their names. -/
def plain : Sexp → Datum
  | .symbol name => .text name
  | .text s => .text s
  | .number z => .number z
  | .list items => .list (plainItems items)

def plainItems : List Sexp → List Datum
  | [] => []
  | x :: xs => plain x :: plainItems xs

end

end Sexp
end VerifierTrace
