/-!
# VerifierTrace.Text.Blank

White space, and texts without the white space at their ends.

White space is the Unicode class of separators and of the control characters that move the print
position: 29 characters, more than the six that `Char.isWhitespace` knows. It is the class that
the log grammar skips between tokens and the one that `trim` removes.
-/

namespace VerifierTrace
namespace Text

/-- White space of any script. The zero-width characters (U+200B, U+FEFF) are not in it. -/
def isBlank (c : Char) : Bool :=
  let n := c.toNat
  (9 ≤ n && n ≤ 13) || (28 ≤ n && n ≤ 32) || n == 0x85 || n == 0xA0 || n == 0x1680 ||
    (0x2000 ≤ n && n ≤ 0x200A) || n == 0x2028 || n == 0x2029 || n == 0x202F || n == 0x205F ||
    n == 0x3000

def skipBlanks (cs : List Char) : List Char := cs.dropWhile isBlank

def trimEnd (cs : List Char) : List Char := (cs.reverse.dropWhile isBlank).reverse

def trim (cs : List Char) : List Char := trimEnd (skipBlanks cs)

@[simp] theorem skipBlanks_nil : skipBlanks [] = [] := rfl

theorem skipBlanks_cons (c : Char) (cs : List Char) :
    skipBlanks (c :: cs) = if isBlank c then skipBlanks cs else c :: cs := by
  simp only [skipBlanks, List.dropWhile_cons]

theorem skipBlanks_length_le (cs : List Char) : (skipBlanks cs).length ≤ cs.length := by
  induction cs with
  | nil => simp
  | cons c cs ih =>
    rw [skipBlanks_cons]
    split
    · simp only [List.length_cons]; omega
    · exact Nat.le_refl _

theorem skipBlanks_suffix (cs : List Char) : skipBlanks cs <:+ cs :=
  List.dropWhile_suffix _

end Text
end VerifierTrace
