/-!
# VerifierTrace.Files.Path

Paths of files as lists of names. Empty names and single dots are left out; `..` stays, since what
it leads to depends on what is there.
-/

namespace VerifierTrace

inductive Root where
  /-- In the working directory. -/
  | here
  /-- At the top of all directories. -/
  | top
  /-- At the top as well, written with exactly two slashes, which some systems tell from one. -/
  | doubled
  deriving DecidableEq, Repr

namespace Root

def text : Root → String
  | .here => ""
  | .top => "/"
  | .doubled => "//"

/-- The root of a path with so many slashes at its front. -/
def ofSlashes : Nat → Root
  | 0 => .here
  | 2 => .doubled
  | _ => .top

end Root

/-- A path from the top of all directories or from the working directory. -/
structure Path where
  root : Root
  names : List String
  deriving DecidableEq, Repr

namespace Path

def absolute (p : Path) : Bool := p.root ≠ .here

def splitNames : List Char → List (List Char)
  | [] => [[]]
  | c :: rest =>
    match splitNames rest with
    | [] => [[c]]
    | name :: more => if c = '/' then [] :: name :: more else (c :: name) :: more

def ofString (text : String) : Path where
  root := .ofSlashes (text.toList.takeWhile (· = '/')).length
  names := ((splitNames text.toList).map String.ofList).filter fun name =>
    name ≠ "" ∧ name ≠ "."

/-- The shortest text of a path; a dot for the working directory. -/
def text (p : Path) : String :=
  if p.root = .here ∧ p.names.isEmpty then "." else p.root.text ++ String.intercalate "/" p.names

def parent (p : Path) : Path := { p with names := p.names.dropLast }

/-- The paths that the path goes through, from the first directory to the path itself. -/
def fronts (p : Path) : List Path :=
  (List.range (p.names.length + 1)).map fun n => { p with names := p.names.take n }

/-- The names with every `..` taken together with the name before it. -/
def straighten (names : List String) : List String :=
  (names.foldl (fun before name => if name = ".." then before.drop 1 else name :: before)
    []).reverse

/-- The path from a directory on, with every `..` taken together with the name before it. -/
def resolve (dir p : Path) : Path :=
  ⟨.top, straighten (if p.absolute then p.names else dir.names ++ p.names)⟩

/-- The path as it is written in a directory that it lies below. -/
def relativeTo? (p dir : Path) : Option Path :=
  if dir.names.isPrefixOf p.names && dir.names.length < p.names.length then
    some ⟨.here, p.names.drop dir.names.length⟩
  else none

/-- The user whose home directory a path starts in: what stands behind a tilde at the front of its
first name. Nothing stands there for the user at hand. -/
def user? (p : Path) : Option String :=
  match p.root, p.names with
  | .here, first :: _ =>
    match first.toList with
    | '~' :: user => some (String.ofList user)
    | _ => none
  | _, _ => none

def inHome (p home : Path) : Path := { home with names := home.names ++ p.names.drop 1 }

/-- Whether a name in the path holds a null character, which no name can. -/
def hasNull (p : Path) : Bool := p.names.any fun name => name.toList.contains '\x00'

end Path
end VerifierTrace
