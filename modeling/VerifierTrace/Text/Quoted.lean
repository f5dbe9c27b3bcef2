import VerifierTrace.Text.Printable

/-!
# VerifierTrace.Text.Quoted

A text in quotes, as messages show it. The quotes are single ones, or double ones if the text has
a single quote and no double one. Inside, a backslash, the quote in use, a line feed, a carriage
return and a tab are written with a backslash, and every other character that does not print as
its number in two, four or eight hexadecimal digits.
-/

namespace VerifierTrace
namespace Text

def hexDigit (n : Nat) : Char := Nat.digitChar n

/-- `n` in hexadecimal, its last `width` digits. -/
def hexPadded : Nat → Nat → List Char
  | 0, _ => []
  | width + 1, n => hexPadded width (n / 16) ++ [hexDigit (n % 16)]

namespace Quoted

/-- The quote that a text is put in. -/
def mark (cs : List Char) : Char :=
  if cs.contains '\'' && !cs.contains '"' then '"' else '\''

def escape (q c : Char) : List Char :=
  if c = '\\' ∨ c = q then ['\\', c]
  else if c = '\n' then ['\\', 'n']
  else if c = '\r' then ['\\', 'r']
  else if c = '\t' then ['\\', 't']
  else if isPrintable c then [c]
  else if c.toNat < 0x100 then '\\' :: 'x' :: hexPadded 2 c.toNat
  else if c.toNat < 0x10000 then '\\' :: 'u' :: hexPadded 4 c.toNat
  else '\\' :: 'U' :: hexPadded 8 c.toNat

end Quoted

def quoteChars (cs : List Char) : List Char :=
  let q := Quoted.mark cs
  q :: cs.flatMap (Quoted.escape q) ++ [q]

def quote (text : String) : String := String.ofList (quoteChars text.toList)

end Text
end VerifierTrace
