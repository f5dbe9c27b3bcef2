import VerifierTrace.Numeral.Decimal
import VerifierTrace.Text.Wide

/-!
# VerifierTrace.Json.Basic

JSON documents, and their text in ASCII.

There are two layouts: `Json.indented`, two spaces for each level and one member a line, and
`Json.inline`, all on one line. Members of objects keep their order in both. Texts and names are
wide texts, since the escapes of JSON can spell halves of surrogate pairs.
-/

namespace VerifierTrace

/-- A JSON document. Numbers with a fraction or an exponent keep only their numeral. -/
inductive Json where
  | null
  | bool (b : Bool)
  | int (z : Int)
  | real (numeral : String)
  | text (s : WideText)
  | list (items : List Json)
  | mapping (members : List (WideText × Json))

namespace Json

instance : Inhabited Json := ⟨.null⟩

def nat (n : Nat) : Json := .int n

def ofOption {α : Type} (f : α → Json) : Option α → Json
  | none => .null
  | some a => f a

def texts (xs : List String) : Json := .list (xs.map fun x => .text (.plain x))

/-- An object whose names are strings. -/
def object (members : List (String × Json)) : Json :=
  .mapping (members.map fun m => (.plain m.1, m.2))

def member? (j : Json) (name : String) : Option Json :=
  match j with
  | .mapping members => (members.find? fun m => decide (m.1 = .plain name)).map Prod.snd
  | _ => none

/-- `\u` and four hexadecimal digits. -/
def unitEscape (n : Nat) : List Char := '\\' :: 'u' :: Text.hexPadded 4 n

/-- A character inside the quotes of a text. Beyond ASCII, a character is written as one or two
UTF-16 units. -/
def escape (c : Char) : List Char :=
  let n := c.toNat
  if c = '"' then ['\\', '"']
  else if c = '\\' then ['\\', '\\']
  else if c = '\n' then ['\\', 'n']
  else if c = '\r' then ['\\', 'r']
  else if c = '\t' then ['\\', 't']
  else if n = 12 then ['\\', 'f']
  else if n = 8 then ['\\', 'b']
  else if 32 ≤ n ∧ n < 127 then [c]
  else if n < 0x10000 then unitEscape n
  else unitEscape (0xD800 + (n - 0x10000) / 0x400) ++ unitEscape (0xDC00 + (n - 0x10000) % 0x400)

def quoted (w : WideText) : String :=
  String.ofList ('"' :: w.spell escape (fun h => unitEscape h.unit) ++ ['"'])

/-- The text of a document without parts. -/
def scalar : Json → String
  | .null => "null"
  | .bool true => "true"
  | .bool false => "false"
  | .int z => toString z
  | .real numeral => numeral
  | .text s => quoted s
  | .list _ => "[]"
  | .mapping _ => "\x7b\x7d"

/-- A new line with `n` spaces. -/
def newline (n : Nat) : String := String.ofList ('\n' :: List.replicate n ' ')

/-- Parts between brackets, each on a line of its own with `n` more spaces than two. -/
def onLines (n : Nat) (opening closing : String) (parts : List String) : String :=
  if parts.isEmpty then opening ++ closing
  else
    opening ++ newline (n + 2) ++ String.intercalate ("," ++ newline (n + 2)) parts ++ newline n ++
      closing

/-- Parts between brackets on one line. -/
def onLine (opening closing : String) (parts : List String) : String :=
  opening ++ String.intercalate ", " parts ++ closing

mutual

/-- The document with one member a line; its own lines are indented by `n`. -/
def layout (n : Nat) : Json → String
  | .list items => onLines n "[" "]" (layoutItems (n + 2) items)
  | .mapping members => onLines n "\x7b" "\x7d" (layoutMembers (n + 2) members)
  | j => scalar j

def layoutItems (n : Nat) : List Json → List String
  | [] => []
  | x :: xs => layout n x :: layoutItems n xs

def layoutMembers (n : Nat) : List (WideText × Json) → List String
  | [] => []
  | (name, x) :: ms => (quoted name ++ ": " ++ layout n x) :: layoutMembers n ms

end

def indented (j : Json) : String := layout 0 j

mutual

def inline : Json → String
  | .list items => onLine "[" "]" (inlineItems items)
  | .mapping members => onLine "\x7b" "\x7d" (inlineMembers members)
  | j => scalar j

def inlineItems : List Json → List String
  | [] => []
  | x :: xs => inline x :: inlineItems xs

def inlineMembers : List (WideText × Json) → List String
  | [] => []
  | (name, x) :: ms => (quoted name ++ ": " ++ inline x) :: inlineMembers ms

end

end Json
end VerifierTrace
