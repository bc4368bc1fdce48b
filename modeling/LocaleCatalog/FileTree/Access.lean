import LocaleCatalog.FileTree.Basic

/-!
# Looking at files

Questions about a workspace that leave it as it is: what kind of entry a path names, the contents
of a file as bytes or as text, the entries of a directory, and all that stands below it. Every path
that is found is spelled as the path it was looked for with, joined with names.
-/

namespace LocaleCatalog.Workspace

/-! ## 1. Kinds -/

/-- Something stands at the path. -/
def contains (workspace : Workspace) (path : Path) : Bool :=
  (workspace.entryAt path).isOk

/-- A directory stands at the path. -/
def isDirectory (workspace : Workspace) (path : Path) : Bool :=
  match workspace.entryAt path with
  | .ok .directory => true
  | _ => false

/-! ## 2. Contents -/

/-- The bytes of a file. -/
def readBytes (workspace : Workspace) (path : Path) : Except IoError ByteArray := do
  match ← workspace.entryAt path with
  | .file bytes => return bytes
  | .directory => throw .isDirectory

/-- The text of a file, which must be UTF-8. -/
def readText (workspace : Workspace) (path : Path) : Except IoError String := do
  match String.fromUTF8? (← workspace.readBytes path) with
  | some text => return text
  | none => throw .notUtf8

/-- The absolute path of what stands at a path. -/
def absolute (workspace : Workspace) (path : Path) : Except IoError Path := do
  let place ← workspace.locate path
  match workspace.tree.find? place with
  | some _ => return ⟨"/" ++ "/".intercalate place⟩
  | none => throw .notFound

/-! ## 3. Directories -/

/-- The names of the entries of a directory, in order; none if the path names no directory. -/
def namesIn (workspace : Workspace) (path : Path) : List String :=
  match workspace.locate path with
  | .error _ => []
  | .ok place =>
    if workspace.tree.find? place = some .directory then
      (workspace.tree.below place).filterMap fun found =>
        match found.1 with
        | [name] => some name
        | _ => none
    else []

/-- The entries at a path and below it, each spelled from that path on. -/
def walk (workspace : Workspace) (path : Path) : Except IoError (List (Path × Entry)) := do
  let place ← workspace.locate path
  match workspace.tree.find? place with
  | none => throw .notFound
  | some (.file bytes) => return [(path, .file bytes)]
  | some .directory =>
    return (path, .directory) :: (workspace.tree.below place).map fun found =>
      (found.1.foldl (fun spelled name => spelled / name) path, found.2)

end LocaleCatalog.Workspace
