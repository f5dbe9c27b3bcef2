import VerifierTrace.CommandLine.Run

/-!
# VerifierTrace.Main

The program: it looks at the files that a command line names, has the command line carried out on
them, and writes and prints what that gives.
-/

namespace VerifierTrace
namespace Main

partial def readAll (input : IO.FS.Stream) (before : ByteArray) : IO ByteArray := do
  let more ← input.read 65536
  if more.isEmpty then return before
  readAll input (before ++ more)

def nodeAt? (path : Path) : IO (Option Node) := do
  try
    let found ← IO.FS.realPath path.text
    match (← found.metadata).type with
    | .dir => return some .bare
    | .file => return some (.file (← IO.FS.readBinFile found).toList)
    | _ => return some (.device [])
  catch _ => return none

/-- A tree with what stands at a path, unless the tree knows it. -/
def observe (files : FileTree) (path : Path) : IO FileTree := do
  if (files.node? (files.resolve path)).isSome then return files
  match ← nodeAt? path with
  | some node => return files.put path node
  | none => return files

/-- The surroundings with what stands at the files that a request names, and on the way there. -/
def observeAll (s : CommandLine.Surroundings) (request : CommandLine.Request) :
    IO CommandLine.Surroundings := do
  let mut files := s.files
  for name in request.fileNames do
    if let .ok path := CommandLine.pathOf s name then
      for front in path.fronts ++ [files.resolve path] do
        files ← observe files front
  return { s with files := files }

def homes : IO Homes := do
  let own := (← IO.getEnv "HOME").toList.map fun home => ("", Path.ofString home)
  try return own ++ Homes.ofAccounts (← IO.FS.readFile "/etc/passwd")
  catch _ => return own

/-- The text in the standard input, if a request asks for it. -/
def stdinOf (request : CommandLine.Request) : IO (List Char) := do
  if request.readsStdin then
    return Text.Utf8.decodeLossy (← readAll (← IO.getStdin) .empty).toList
  return []

/-- Writes a file, with the directories that it lies in. -/
def writeFile (path : Path) (bytes : List UInt8) : IO Unit := do
  IO.FS.createDirAll path.parent.text
  IO.FS.writeBinFile path.text ⟨bytes.toArray⟩

def present (before : FileTree) (o : CommandLine.Outcome) : IO UInt32 := do
  for (path, bytes) in before.changes o.files do
    writeFile path bytes
  for line in o.told ++ o.misuse.toList do
    IO.eprintln line
  if o.usage then
    IO.eprint CommandLine.Request.usage
  IO.print o.stdout
  return UInt32.ofNat o.exit

def run (args : List String) : IO UInt32 := do
  let here := Path.ofString (← IO.currentDir).toString
  let s : CommandLine.Surroundings := ⟨[], .empty here, ← homes, "Lean 4"⟩
  match CommandLine.Request.read args with
  | .ok (some request) =>
    let s ← observeAll { s with stdin := ← stdinOf request } request
    present s.files (CommandLine.run s args)
  | _ => present s.files (CommandLine.run s args)

end Main
end VerifierTrace

def main (args : List String) : IO UInt32 := VerifierTrace.Main.run args
