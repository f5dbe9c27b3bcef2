/-!
# VerifierTrace.Numeral.Decimal

Decimal numerals with a bound on their length. Numbers are unbounded, but a numeral of more than
4300 digits is neither read nor written: the work on one grows with the square of its length, and
a log that holds such a numeral is refused with `NumeralFault`. Leading zeros count as digits and a
sign does not.
-/

namespace VerifierTrace

/-- A numeral is longer than the bound. -/
inductive NumeralFault where
  /-- A numeral of so many digits was to be read. -/
  | unreadable (digits : Nat)
  /-- A number whose numeral is too long was to be written. -/
  | unwritable
  deriving DecidableEq, Repr

namespace NumeralFault

def message : NumeralFault → String
  | .unreadable digits =>
    "Exceeds the limit (4300 digits) for integer string conversion: value has " ++
      toString digits ++ " digits; use sys.set_int_max_str_digits() to increase the limit"
  | .unwritable =>
    "Exceeds the limit (4300 digits) for integer string conversion; " ++
      "use sys.set_int_max_str_digits() to increase the limit"

end NumeralFault

namespace Decimal

/-- The greatest number of digits of a numeral. -/
def maxDigits : Nat := 4300

def value (digits : List Char) : Nat := Nat.ofDigitChars 10 digits 0

/-- The value of a string of digits that is not too long. -/
def read (digits : List Char) : Except NumeralFault Nat :=
  if digits.length ≤ maxDigits then .ok (value digits) else .error (.unreadable digits.length)

def readSigned (negative : Bool) (digits : List Char) : Except NumeralFault Int :=
  (read digits).map fun n => if negative then -(n : Int) else n

/-- Passes a number whose numeral is not too long. -/
def checkWritable (z : Int) : Except NumeralFault Int :=
  if z.natAbs < Nat.pow 10 maxDigits then .ok z else .error .unwritable

/-- The digits at the front of a text, and what follows them. Digits are `0` to `9` only. -/
def run (cs : List Char) : List Char × List Char :=
  (cs.takeWhile Char.isDigit, cs.dropWhile Char.isDigit)

def run? (cs : List Char) : Option (List Char × List Char) :=
  if (run cs).1.isEmpty then none else some (run cs)

/-- A numeral with at least `width` characters: zeros are put between the sign and the digits. -/
def padded (width : Nat) (z : Int) : String :=
  let digits := toString z.natAbs
  let sign := if z < 0 then "-" else ""
  sign ++ String.ofList (List.replicate (width - sign.length - digits.length) '0') ++ digits

theorem read_ok_iff {ds : List Char} {n : Nat} :
    read ds = .ok n ↔ ds.length ≤ maxDigits ∧ n = value ds := by
  unfold read
  split
  · next h => simp only [Except.ok.injEq, h, true_and]; exact eq_comm
  · next h => simp [h]

end Decimal
end VerifierTrace
