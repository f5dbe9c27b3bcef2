/-!
# VerifierTrace.Text.Lines

A text as its list of lines. A line ends at a line feed, a carriage return (the two together count
once), a vertical tab, a form feed, one of the separators U+001C to U+001E, the next-line
character U+0085, or a Unicode line or paragraph separator. The end of the text ends its last line,
and a break there opens no further line.
-/

namespace VerifierTrace
namespace Text

def isLineBreak (c : Char) : Bool :=
  let n := c.toNat
  (10 ≤ n && n ≤ 13) || (28 ≤ n && n ≤ 30) || n == 0x85 || n == 0x2028 || n == 0x2029

/-- The lines of a text, without the characters that end them. -/
def lines : List Char → List (List Char)
  | [] => []
  | '\r' :: '\n' :: rest => [] :: lines rest
  | c :: rest =>
    if isLineBreak c then [] :: lines rest
    else match lines rest with
      | [] => [[c]]
      | line :: more => (c :: line) :: more

def linesOf (text : String) : List String := (lines text.toList).map String.ofList

/-- Every break between lines of a file read as one line feed: a carriage return, alone or before
a line feed, becomes a line feed. -/
def unifyNewlines : List Char → List Char
  | [] => []
  | '\r' :: '\n' :: rest => '\n' :: unifyNewlines rest
  | c :: rest => (if c = '\r' then '\n' else c) :: unifyNewlines rest

end Text
end VerifierTrace
