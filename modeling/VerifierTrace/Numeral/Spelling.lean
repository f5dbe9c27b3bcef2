import VerifierTrace.Numeral.Decimal
import VerifierTrace.Text.Blank

/-!
# VerifierTrace.Numeral.Spelling

Numerals as people write them: white space around (but no information separator), a sign, and
single underscores between digits are allowed, a hexadecimal numeral may begin with `0x`, and the
decimal digits of every script count. Hexadecimal numerals have no bound on their length; decimal
ones keep the bound of `Decimal.maxDigits`.
-/

namespace VerifierTrace
namespace Numeral

/-- The code points of the zeros of all scripts (Unicode 14); the nine other digits of a script
follow its zero. -/
def zeros : List Nat :=
  [0x30, 0x660, 0x6F0, 0x7C0, 0x966, 0x9E6, 0xA66, 0xAE6, 0xB66, 0xBE6, 0xC66, 0xCE6, 0xD66,
   0xDE6, 0xE50, 0xED0, 0xF20, 0x1040, 0x1090, 0x17E0, 0x1810, 0x1946, 0x19D0, 0x1A80, 0x1A90,
   0x1B50, 0x1BB0, 0x1C40, 0x1C50, 0xA620, 0xA8D0, 0xA900, 0xA9D0, 0xA9F0, 0xAA50, 0xABF0,
   0xFF10, 0x104A0, 0x10D30, 0x11066, 0x110F0, 0x11136, 0x111D0, 0x112F0, 0x11450, 0x114D0,
   0x11650, 0x116C0, 0x11730, 0x118E0, 0x11950, 0x11C50, 0x11D50, 0x11DA0, 0x16A60, 0x16AC0,
   0x16B50, 0x1D7CE, 0x1D7D8, 0x1D7E2, 0x1D7EC, 0x1D7F6, 0x1E140, 0x1E2F0, 0x1E950, 0x1FBF0]

/-- The value of a decimal digit of any script. -/
def decimalDigit? (c : Char) : Option Nat :=
  (zeros.find? fun z => z ≤ c.toNat && c.toNat < z + 10).map (c.toNat - ·)

/-- The value of a hexadecimal digit: a decimal digit, or a letter from `a` to `f` in either
case. -/
def hexDigit? (c : Char) : Option Nat :=
  if 'a' ≤ c && c ≤ 'f' then some (c.toNat - 'a'.toNat + 10)
  else if 'A' ≤ c && c ≤ 'F' then some (c.toNat - 'A'.toNat + 10)
  else decimalDigit? c

/-- The values of digits between which single underscores may stand. -/
def digits? (digit? : Char → Option Nat) : List Char → Option (List Nat)
  | [] => none
  | [c] => (digit? c).map fun d => [d]
  | c :: '_' :: rest => do return (← digit? c) :: (← digits? digit? rest)
  | c :: rest => do return (← digit? c) :: (← digits? digit? rest)

/-- The number with the given digits, most significant first. -/
def ofDigits (base : Nat) (digits : List Nat) : Nat :=
  digits.foldl (fun n d => n * base + d) 0

/-- The sign of a numeral, as `true` for a minus, and its digits. -/
def sign : List Char → Bool × List Char
  | '-' :: rest => (true, rest)
  | '+' :: rest => (false, rest)
  | cs => (false, cs)

def signed (negative : Bool) (n : Nat) : Int := if negative then -(n : Int) else n

/-- The digits of a hexadecimal numeral without the `0x` it may begin with; an underscore may
stand between the two, and the zero may be of any script. -/
def dropHexMark : List Char → List Char
  | z :: x :: rest =>
    if decimalDigit? z = some 0 ∧ (x = 'x' ∨ x = 'X') then match rest with
      | '_' :: more => more
      | _ => rest
    else z :: x :: rest
  | cs => cs

/-- White space that may stand around a numeral: all but the separators U+001C to U+001F. -/
def isMargin (c : Char) : Bool := Text.isBlank c && !(28 ≤ c.toNat && c.toNat ≤ 31)

/-- A numeral without the white space around it. -/
def body (cs : List Char) : List Char :=
  ((cs.dropWhile isMargin).reverse.dropWhile isMargin).reverse

def hex? (cs : List Char) : Option Int :=
  let (negative, digits) := sign (body cs)
  (digits? hexDigit? (dropHexMark digits)).map fun ds => signed negative (ofDigits 16 ds)

/-- The value of a decimal numeral of at most `Decimal.maxDigits` digits. -/
def decimal? (cs : List Char) : Option Int :=
  let (negative, digits) := sign (body cs)
  match digits? decimalDigit? digits with
  | some ds =>
    if ds.length ≤ Decimal.maxDigits then some (signed negative (ofDigits 10 ds)) else none
  | none => none

end Numeral
end VerifierTrace
