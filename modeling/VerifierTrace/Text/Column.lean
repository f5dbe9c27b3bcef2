/-!
# VerifierTrace.Text.Column

Texts in columns of a fixed width. A text that is shorter than its column is filled up with spaces,
a longer one is kept whole.
-/

namespace VerifierTrace
namespace Text

def gap (width : Nat) (s : String) : String := String.ofList (List.replicate (width - s.length) ' ')

def alignLeft (width : Nat) (s : String) : String := s ++ gap width s

def alignRight (width : Nat) (s : String) : String := gap width s ++ s

def rows (rs : List String) : String := String.intercalate "\n" rs

/-- A text that ends in a line feed; one is added where it is missing. -/
def closed (s : String) : String := if s.toList.getLast? = some '\n' then s else s ++ "\n"

end Text
end VerifierTrace
