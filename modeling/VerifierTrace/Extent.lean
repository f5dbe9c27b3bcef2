/-!
# VerifierTrace.Extent

Parts of a line, located from its end.

The start of a part is stored as a negative distance from the end of the line, so it stays right
whatever is put in front of the line or cut from there.
-/

namespace VerifierTrace

/-- A part of a line: where it starts, counted from the end of the line, and how long it is. -/
structure Extent where
  offset : Int
  size : Int
  deriving DecidableEq, Repr

namespace Extent

/-- The part of a line that lies between two of its ends, `after` the end of `before`. -/
def between (before after : List Char) : Extent :=
  ⟨-(before.length : Int), (before.length : Int) - after.length⟩

def resolve (e : Extent) (line : List Char) : Int × Int :=
  let start := (line.length : Int) + e.offset
  (start, start + e.size)

/-- A position in a text of length `n`: negative ones count from the end, and a position outside
the text is moved to its nearest end. -/
def clamp (n : Nat) (position : Int) : Nat :=
  let p := if position < 0 then position + n else position
  min p.toNat n

def slice (line : List Char) (start stop : Int) : List Char :=
  let n := line.length
  (line.take (clamp n stop)).drop (clamp n start)

def text (e : Extent) (line : List Char) : List Char :=
  let (start, stop) := e.resolve line
  slice line start stop

end Extent
end VerifierTrace
