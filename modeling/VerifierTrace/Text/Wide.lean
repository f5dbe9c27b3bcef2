import VerifierTrace.Text.Quoted

/-!
# VerifierTrace.Text.Wide

Texts in which halves of surrogate pairs may stand alone.

A surrogate pair is two UTF-16 units that make up one character. Notations that spell units one by
one, such as the escapes of JSON, can spell half of a pair, which is no character and cannot stand
in a `String`.

* `WideText`: a string, or a string, a half, and the wide text after it, so each text has one form.
* `WideText.string`: the nearest string, with U+FFFD for every half.
* `WideText.quote`: the text in quotes, a half by its number.
-/

namespace VerifierTrace

/-- Half of a surrogate pair, counted from U+D800. -/
abbrev Half := Fin 0x800

namespace Half

def unit (h : Half) : Nat := 0xD800 + h.val

def ofUnit? (n : Nat) : Option Half :=
  if h : 0xD800 ≤ n ∧ n < 0xE000 then some ⟨n - 0xD800, by omega⟩ else none

/-- Whether the half comes first in a pair. -/
def isFirst (h : Half) : Bool := h.val < 0x400

def pair (first second : Half) : Char :=
  Char.ofNat (0x10000 + first.val * 0x400 + (second.val - 0x400))

end Half

/-- What a text is made of: characters, and halves of surrogate pairs that stand alone. -/
inductive Point where
  | char (c : Char)
  | half (h : Half)
  deriving DecidableEq, Repr

/-- A text in which halves of surrogate pairs may stand alone. -/
inductive WideText where
  | plain (s : String)
  /-- A string up to the first half, that half, and what follows it. -/
  | broken (before : String) (half : Half) (after : WideText)
  deriving DecidableEq, Repr

namespace WideText

instance : Coe String WideText := ⟨.plain⟩

/-- The text of points behind `before`, the characters since the last half in reverse. -/
def gather (before : List Char) : List Point → WideText
  | [] => .plain (String.ofList before.reverse)
  | .char c :: more => gather (c :: before) more
  | .half h :: more => .broken (String.ofList before.reverse) h (gather [] more)

def ofPoints (ps : List Point) : WideText := gather [] ps

def points : WideText → List Point
  | .plain s => s.toList.map .char
  | .broken before h after => before.toList.map .char ++ .half h :: after.points

theorem points_gather (before : List Char) (ps : List Point) :
    (gather before ps).points = before.reverse.map .char ++ ps := by
  induction ps generalizing before with
  | nil => simp [gather, points]
  | cons p more ih =>
    cases p with
    | char c => simp [gather, ih]
    | half h => simp [gather, points, ih]

/-- No point is lost. -/
theorem points_ofPoints (ps : List Point) : (ofPoints ps).points = ps := by
  simp [ofPoints, points_gather]

def isEmpty : WideText → Bool
  | .plain s => s.isEmpty
  | .broken .. => false

/-- The characters up to the first half. -/
def front : WideText → String
  | .plain s => s
  | .broken before .. => before

/-- The nearest string, with U+FFFD for every half. -/
def string : WideText → String
  | .plain s => s
  | .broken before _ after => before ++ "\uFFFD" ++ after.string

/-- The characters, without the halves. -/
def characters : WideText → List Char
  | .plain s => s.toList
  | .broken before _ after => before.toList ++ after.characters

/-- The text inside quotes, with `f` for the characters and `g` for the halves. -/
def spell (f : Char → List Char) (g : Half → List Char) : WideText → List Char
  | .plain s => s.toList.flatMap f
  | .broken before h after => before.toList.flatMap f ++ g h ++ after.spell f g

/-- The text in quotes, with `\u` and four hexadecimal digits for a half. -/
def quote (w : WideText) : String :=
  let q := Text.Quoted.mark w.characters
  let half (h : Half) : List Char := '\\' :: 'u' :: Text.hexPadded 4 h.unit
  String.ofList (q :: w.spell (Text.Quoted.escape q) half ++ [q])

end WideText
end VerifierTrace
