import VerifierTrace.Files.Path
import VerifierTrace.Table
import VerifierTrace.Text.Quoted

/-!
# VerifierTrace.Files.Tree

The files that a command can see and the ones that it makes.

* `Node`: what stands at a place, a file, a device, or a directory with more nodes in it.
* `FileTree.place`: where a path leads. Paths are followed name by name from the top, so a missing
  directory or a file in the place of one is found where it stands.
* `FileTree.read`, `FileTree.readRegular`: the bytes that a path leads to.
* `FileTree.writeDeep`: the tree with a file and the directories that it lies in.
-/

namespace VerifierTrace

inductive FileFault where
  | notFound
  | alreadyExists
  | notDirectory
  | isDirectory
  | nameTooLong
  | nullCharacter
  /-- Too many directories would have to be made, one in the other. -/
  | tooDeep
  deriving DecidableEq, Repr

namespace FileFault

/-- The number and the name of the fault, and the path in quotes. -/
def message (f : FileFault) (path : Path) : String :=
  let quoted := Text.quote path.text
  match f with
  | .notFound => "[Errno 2] No such file or directory: " ++ quoted
  | .alreadyExists => "[Errno 17] File exists: " ++ quoted
  | .notDirectory => "[Errno 20] Not a directory: " ++ quoted
  | .isDirectory => "[Errno 21] Is a directory: " ++ quoted
  | .nameTooLong => "[Errno 36] File name too long: " ++ quoted
  | .nullCharacter => "embedded null byte"
  | .tooDeep => "maximum recursion depth exceeded while calling a Python object"

end FileFault

inductive Node where
  | file (bytes : List UInt8)
  /-- It can be read and written, but is no file. -/
  | device (bytes : List UInt8)
  | directory (entries : List (String × Node))

namespace Node

def bare : Node := .directory []

/-- The entries of a directory; nothing else has any. -/
def entries : Node → List (String × Node)
  | .directory es => es
  | _ => []

/-- The node with another one at a place below it. What is missing on the way, or is no directory,
becomes one. -/
def put (node new : Node) : List String → Node
  | [] => new
  | name :: more =>
    .directory (Table.put name (put ((node.entries.lookup name).getD bare) new more) node.entries)

def get? (node : Node) : List String → Option Node
  | [] => some node
  | name :: more => (node.entries.lookup name).bind fun next => get? next more

/-- The bytes that the node holds; a directory holds none. -/
def bytes? : Node → Option (List UInt8)
  | .file bytes => some bytes
  | .device bytes => some bytes
  | .directory _ => none

mutual

/-- All places below a place that hold bytes. -/
def contents (names : List String) : Node → List (List String × List UInt8)
  | .file bytes => [(names, bytes)]
  | .device bytes => [(names, bytes)]
  | .directory es => contentsOf names es

def contentsOf (names : List String) : List (String × Node) → List (List String × List UInt8)
  | [] => []
  | (name, node) :: more => contents (names ++ [name]) node ++ contentsOf names more

end

end Node

structure FileTree where
  /-- Where the working directory is. -/
  here : Path
  top : Node

namespace FileTree

def empty (here : Path) : FileTree := ⟨here, Node.bare.put .bare here.names⟩

def resolve (t : FileTree) (p : Path) : Path := t.here.resolve p

/-- The tree with a node at a path, which may lead anywhere. -/
def put (t : FileTree) (p : Path) (node : Node) : FileTree :=
  { t with top := t.top.put node (t.resolve p).names }

def node? (t : FileTree) (p : Path) : Option Node := t.top.get? p.names

/-- The greatest number of bytes in a name. -/
def maxNameSize : Nat := 255

/-- The greatest number of bytes in a path. -/
def maxPathSize : Nat := 4095

/-- How many directories can be made for a file, one in the other. -/
def maxNewDirectories : Nat := 987

/-- Where a path leads: to a place, by the names from the top, and to what stands there, if anything
does. -/
structure Spot where
  names : List String
  node : Option Node

/-- A node on the way along a path, with the nodes that it lies in, the innermost first, each under
the name that was followed from there. -/
structure Trail where
  node : Node
  above : List (Node × String)

namespace Trail

def names (t : Trail) : List String := (t.above.map Prod.snd).reverse

/-- The way back to the directory that the node lies in; the top lies in itself. -/
def up (t : Trail) : Trail :=
  match t.above with
  | [] => t
  | (node, _) :: above => ⟨node, above⟩

def down (t : Trail) (name : String) (node : Node) : Trail := ⟨node, (t.node, name) :: t.above⟩

/-- Follows names. All but the last must lead to directories; the last may lead nowhere. -/
def walk (t : Trail) : List String → Except FileFault Spot
  | [] => .ok ⟨t.names, some t.node⟩
  | name :: more =>
    match t.node with
    | .directory es =>
      if maxNameSize < name.utf8ByteSize then .error .nameTooLong
      else if name = ".." then t.up.walk more
      else match es.lookup name with
        | some node => (t.down name node).walk more
        | none => if more.isEmpty then .ok ⟨t.names ++ [name], none⟩ else .error .notFound
    | _ => .error .notDirectory

end Trail

def place (t : FileTree) (p : Path) : Except FileFault Spot :=
  if p.hasNull then .error .nullCharacter
  else if maxPathSize < p.text.utf8ByteSize then .error .nameTooLong
  else (Trail.mk t.top []).walk (if p.absolute then p.names else t.here.names ++ p.names)

def read (t : FileTree) (p : Path) : Except FileFault (List UInt8) :=
  match t.place p with
  | .error e => .error e
  | .ok ⟨_, some (.file bytes)⟩ => .ok bytes
  | .ok ⟨_, some (.device bytes)⟩ => .ok bytes
  | .ok ⟨_, some (.directory _)⟩ => .error .isDirectory
  | .ok ⟨_, none⟩ => .error .notFound

/-- The bytes of the file at a path with every `..` taken together with the name before it. If the
path leads to no file, it is not found, whatever else it leads to. -/
def readRegular (t : FileTree) (p : Path) : Except FileFault (List UInt8) :=
  if p.hasNull then .error .nullCharacter
  else match t.place (t.resolve p) with
    | .ok ⟨_, some (.file bytes)⟩ => .ok bytes
    | .error .nameTooLong => .error .nameTooLong
    | _ => .error .notFound

def makeDirectory (t : FileTree) (p : Path) : Except FileFault FileTree :=
  match t.place p with
  | .error e => .error e
  | .ok ⟨_, some _⟩ => .error .alreadyExists
  | .ok ⟨names, none⟩ => .ok { t with top := t.top.put .bare names }

def leadsToDirectory (t : FileTree) (p : Path) : Bool :=
  match t.place p with
  | .ok ⟨_, some (.directory _)⟩ => true
  | _ => false

/-- The tree with a directory that may be there already. -/
def ensureDirectory (t : FileTree) (p : Path) : Except (FileFault × Path) FileTree :=
  match t.makeDirectory p with
  | .ok t => .ok t
  | .error e => if t.leadsToDirectory p then .ok t else .error (e, p)

/-- The tree with a directory and all those that it lies in; at most `depth` of them can be made. -/
def ensureDirectories (t : FileTree) : Nat → Path → Except (FileFault × Path) FileTree
  | 0, p => .error (.tooDeep, p)
  | depth + 1, p =>
    match t.makeDirectory p with
    | .ok t => .ok t
    | .error .notFound =>
      if p.names.isEmpty then .error (.notFound, p)
      else match ensureDirectories t depth p.parent with
        | .error e => .error e
        | .ok t => t.ensureDirectory p
    | .error e => if t.leadsToDirectory p then .ok t else .error (e, p)

/-- The tree with a file, in place of one that may be there. A device stays one. -/
def write (t : FileTree) (p : Path) (bytes : List UInt8) : Except (FileFault × Path) FileTree :=
  match t.place p with
  | .error e => .error (e, p)
  | .ok ⟨_, some (.directory _)⟩ => .error (.isDirectory, p)
  | .ok ⟨names, some (.device _)⟩ => .ok { t with top := t.top.put (.device bytes) names }
  | .ok ⟨names, _⟩ => .ok { t with top := t.top.put (.file bytes) names }

/-- The tree with a file and the directories that it lies in. -/
def writeDeep (t : FileTree) (p : Path) (bytes : List UInt8) :
    Except (FileFault × Path) FileTree :=
  match t.ensureDirectories maxNewDirectories p.parent with
  | .error e => .error e
  | .ok t => t.write p bytes

def contents (t : FileTree) : List (Path × List UInt8) :=
  (t.top.contents []).map fun e => (⟨.top, e.1⟩, e.2)

/-- What a tree holds at places where another holds nothing, or other bytes. -/
def changes (before after : FileTree) : List (Path × List UInt8) :=
  after.contents.filter fun e => decide ((before.node? e.1).bind Node.bytes? ≠ some e.2)

end FileTree
end VerifierTrace
