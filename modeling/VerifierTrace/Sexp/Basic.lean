/-!
# VerifierTrace.Sexp.Basic

S-expressions and their text.

Lists are in parentheses with one space between members, numbers are decimal, texts are in double
quotes, and symbols stand bare. Characters that would end a text or a symbol are written behind a
backslash.
-/

namespace VerifierTrace

inductive Sexp where
  | symbol (name : String)
  | text (s : String)
  | number (z : Int)
  | list (items : List Sexp)

namespace Sexp

instance : Inhabited Sexp := ⟨.list []⟩

/-- A keyword, a symbol that starts with a colon. -/
def keyword (name : String) : Sexp := .symbol (":" ++ name)

def texts (xs : List String) : Sexp := .list (xs.map .text)

/-- A character inside the quotes of a text. -/
def escapeText (c : Char) : List Char :=
  if c = '\\' ∨ c = '"' then ['\\', c]
  else if c = '\n' then ['\\', 'n']
  else if c = '\r' then ['\\', 'r']
  else if c = '\t' then ['\\', 't']
  else if c.toNat = 8 then ['\\', 'b']
  else if c.toNat = 12 then ['\\', 'f']
  else [c]

/-- Characters that a symbol has behind a backslash only. -/
def isSpecial (c : Char) : Bool :=
  ['\\', '\'', '\x60', '"', '(', ')', '[', ']', ' ', ',', '?', ';', '#'].contains c

def escapeSymbol (c : Char) : List Char := if isSpecial c then ['\\', c] else [c]

/-- Parts with one space between them. -/
def spaced : List (List Char) → List Char
  | [] => []
  | [part] => part
  | part :: more => part ++ ' ' :: spaced more

mutual

def chars : Sexp → List Char
  | .symbol name => name.toList.flatMap escapeSymbol
  | .text s => '"' :: s.toList.flatMap escapeText ++ ['"']
  | .number z => (toString z).toList
  | .list items => '(' :: spaced (itemChars items) ++ [')']

def itemChars : List Sexp → List (List Char)
  | [] => []
  | x :: xs => chars x :: itemChars xs

end

def write (e : Sexp) : String := String.ofList e.chars

def writeLines (es : List Sexp) : String := String.intercalate "\n" (es.map write)

end Sexp
end VerifierTrace
