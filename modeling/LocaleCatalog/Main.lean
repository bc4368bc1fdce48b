import LocaleCatalog.Command.Footprint
import LocaleCatalog.FileTree.Difference

/-!
# The program

The command line of the catalog. What a command looks at is loaded from the disk, the command runs
on what was loaded, and what it changed is written back. Source files are taken from the names on
standard input, one a line, as a listing of the project's files prints them; nothing is read from a
terminal.

All that is decided is decided by `Invocation.parse` and `Invocation.run`; this module reads and
writes.
-/

namespace LocaleCatalog.Command

/-! ## 1. Loading -/

/-- A place as the disk names it. -/
def diskName (place : Location) : String := "/" ++ "/".intercalate place

/-- What stands at a place of the disk. -/
def readPlace? (place : Location) : IO (Option Entry) := do
  try
    let _ ← IO.FS.realPath (diskName place ++ "/.")
    return some .directory
  catch _ =>
    try return some (.file (← IO.FS.readBinFile (diskName place)))
    catch _ => return none

/-- Loads the places that a path passes. -/
def load (workspace : Workspace) (path : Path) : IO Workspace := do
  let mut tree := workspace.tree
  for place in workspace.passed path do
    if (tree.find? place).isNone then
      if let some entry ← readPlace? place then tree := tree.insert place entry
  return { workspace with tree }

/-- Loads the places that each of the paths passes. -/
def loadAll (workspace : Workspace) (paths : List Path) : IO Workspace :=
  paths.foldlM load workspace

/-- The lines of a stream up to its end, without the line ends and without empty lines. -/
partial def readLines (stream : IO.FS.Stream) : IO (List String) := do
  let line ← stream.getLine
  if line = "" then return []
  let name := String.ofList (line.toList.filter (· ≠ '\n'))
  let more ← readLines stream
  return if name = "" then more else name :: more

/-- The names of files on standard input. -/
def listedFiles : IO (List Path) := do
  let input ← IO.getStdin
  if ← input.isTty then return []
  return (← readLines input).map Path.mk

/-- Loads all that a command looks at. -/
def loadFor (invocation : Invocation) : IO Workspace := do
  let here : Path := ⟨toString (← IO.currentDir)⟩
  let current := here.segments.filter (· ≠ "")
  let workspace ← loadAll ⟨.empty, current⟩ [⟨"."⟩, invocation.start]
  let workspace ← loadAll workspace (invocation.searched workspace)
  let workspace ← loadAll workspace (invocation.used workspace)
  if invocation.readsSources then loadAll workspace (← listedFiles) else return workspace

/-! ## 2. Writing back -/

/-- Makes a change on the disk. -/
def alter : Alteration → IO Unit
  | .removeFile place => IO.FS.removeFile (diskName place)
  | .makeDirectory place => IO.FS.createDir (diskName place)
  | .writeFile place bytes => IO.FS.writeBinFile (diskName place) bytes

/-- Writes what a command says. -/
def print (result : Result) : IO Unit := do
  IO.print result.output
  IO.eprint result.errors

/-- The terminal and its user want colours. -/
def terminalColours : IO Bool := do
  let terminal ← (← IO.getStdout).isTty
  return coloursShown (← IO.getEnv "CLICOLOR_FORCE") (← IO.getEnv "NO_COLOR")
    (← IO.getEnv "CLICOLOR") terminal

/-! ## 3. Running -/

/-- Runs a command on the disk. -/
def runOnDisk (invocation : Invocation) : IO Result := do
  let workspace ← loadFor invocation
  let (result, after) := invocation.run (← terminalColours) workspace
  (workspace.tree.alterations after.tree).forM alter
  return result

/-- Runs the program and gives its exit code. -/
def program (arguments : List String) : IO UInt32 := do
  let result ←
    match Invocation.parse (← IO.getEnv "GLOTSYNC_ROOT") arguments with
    | .ok invocation => runOnDisk invocation
    | .error error => pure (Result.ofUsage error)
  print result
  return result.exitCode.toUInt32

end LocaleCatalog.Command

/-- The entry point of the program. -/
def main (arguments : List String) : IO UInt32 := LocaleCatalog.Command.program arguments
