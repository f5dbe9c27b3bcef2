import VerifierTrace.LogLine.Basic
import VerifierTrace.Table

/-!
# VerifierTrace.SourceMap

Which lines of the log belong to which lines of the program's source.

A source note is in force for the instructions after it, up to the next note. Notes of
one source line may come many times: the first is kept, and their instructions are put together. For
every file the least and the greatest line number that was announced is kept too, blank lines and
line zero apart.

* `SourceMap.Builder.feed`: takes one line of the log.
* `SourceMap.Builder.build`: closes the note in force and shows the map so far.
-/

namespace VerifierTrace

/-- A source note and the line of the log that holds it. -/
structure Announcement where
  idx : Int
  raw : String
  note : SourceNote
  deriving DecidableEq, Repr

namespace Announcement

def line (a : Announcement) : LogLine := ⟨a.idx, a.raw, .source a.note⟩

def id (a : Announcement) : String := a.note.id

end Announcement

def LogLine.announcement? (l : LogLine) : Option Announcement :=
  match l.content with
  | .source a => some ⟨l.idx, l.raw, a⟩
  | _ => none

/-- A map between source lines and lines of the log. -/
structure SourceMap where
  sources : Table String Announcement
  sourceOf : Table Int String
  /-- The instruction lines of every source line, in ascending order. -/
  linesOf : Table String (List Int)
  /-- The least and the greatest line number of every file. -/
  ranges : Table String (Nat × Nat)
  deriving DecidableEq

namespace SourceMap

def empty : SourceMap := ⟨.empty, .empty, .empty, .empty⟩

def size (m : SourceMap) : Nat := m.sources.size

/-- The first line of the log that announces a source line. -/
def sourceLine? (m : SourceMap) (id : String) : Option Announcement := m.sources.get? id

def logLines (m : SourceMap) (id : String) : List Int := (m.linesOf.get? id).getD []

def sourceId? (m : SourceMap) (idx : Int) : Option String := m.sourceOf.get? idx

/-- The least and the greatest line number announced of a file. -/
def range? (m : SourceMap) (file : String) : Option (Nat × Nat) := m.ranges.get? file

/-- An ascending list with one more member; a member that it has is not added. -/
def addTo (idx : Int) : List Int → List Int
  | [] => [idx]
  | x :: rest => if idx < x then idx :: x :: rest else if idx = x then x :: rest
    else x :: addTo idx rest

def widen (range : Option (Nat × Nat)) (n : Nat) : Nat × Nat :=
  match range with
  | none => (n, n)
  | some (low, high) => (min low n, max high n)

def add (m : SourceMap) (a : Announcement) (idxs : List Int) : SourceMap where
  sources := if m.sources.contains a.id then m.sources else m.sources.insert a.id a
  sourceOf := idxs.foldl (fun t idx => t.insert idx a.id) m.sourceOf
  linesOf := m.linesOf.insert a.id (idxs.foldl (fun xs idx => addTo idx xs) (m.logLines a.id))
  ranges :=
    if a.note.ignored then m.ranges
    else m.ranges.insert a.note.file
      (widen (m.range? a.note.file) a.note.number)

/-- A map under construction: the note in force, and the instruction lines since. -/
structure Builder where
  map : SourceMap
  current : Option Announcement
  pending : List Int
  deriving DecidableEq

namespace Builder

def empty : Builder := ⟨.empty, none, []⟩

/-- Gives the pending instruction lines to the note in force. -/
def flush (b : Builder) : Builder :=
  match b.current with
  | none => { b with pending := [] }
  | some a => ⟨b.map.add a b.pending, some a, []⟩

/-- Adds instruction lines to a source line, whatever note is in force. -/
def addSource (b : Builder) (a : Announcement) (idxs : List Int) : Builder :=
  { b with map := b.map.add a idxs }

def feed (b : Builder) (line : LogLine) : Builder :=
  match line.content with
  | .source a => { b.flush with current := some ⟨line.idx, line.raw, a⟩ }
  | .instruction .. => { b with pending := b.pending ++ [line.idx] }
  | _ => b

/-- Closes the note in force; the map of the result is complete so far. -/
def build (b : Builder) : Builder := { b.flush with current := none }

end Builder

def ofLines (lines : List LogLine) : SourceMap :=
  (lines.foldl Builder.feed Builder.empty).build.map

end SourceMap
end VerifierTrace
