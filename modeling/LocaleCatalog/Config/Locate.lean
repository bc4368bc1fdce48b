import LocaleCatalog.Config.Reader
import LocaleCatalog.FileTree.Access

/-!
# Which configuration governs a directory

The configuration file of a directory is the one in it, or in the nearest directory above that has
one. The search goes no further up than the first directory that holds `.git`, which marks the top
of a project. Where no file governs, the defaults do.
-/

namespace LocaleCatalog.Config

/-! ## 1. The search -/

/-- The entry that marks the top of a project. -/
def topMark : String := ".git"

/-- The configuration file that governs the first of the directories, each of which lies in the
    next. -/
def findIn (workspace : Workspace) : List Path → Option Path
  | [] => none
  | directory :: outer =>
    if workspace.contains (directory / fileName) then some (directory / fileName)
    else if workspace.contains (directory / topMark) then none
    else findIn workspace outer

/-- The configuration file that governs a directory. -/
def find? (workspace : Workspace) (start : Path) : Option Path :=
  findIn workspace (start :: start.ancestors)

/-! ## 2. Loading -/

/-- Why there are no settings to work with. -/
inductive Error where
  | unresolved (start : Path) (error : IoError)
  | unreadable (path : Path) (error : IoError)
  | malformed (path : Path) (malformation : Json.Malformation)
  | invalid (problem : Problem)

/-- The wording of an error. -/
def Error.message : Error → String
  | .unresolved start _ => s!"Failed to resolve directory: {start.text}"
  | .unreadable path _ => s!"Failed to read config file: {path.text}"
  | .malformed path _ => s!"Failed to parse config file: {path.text}"
  | .invalid problem => problem.message

/-- What lies behind an error. -/
def Error.causes : Error → List String
  | .unresolved _ error | .unreadable _ error => [error.message]
  | .malformed _ malformation => [malformation.message]
  | .invalid problem => problem.causes

/-- Settings, and the directory that their paths start from. -/
structure Loaded where
  config : Config
  base : Path
  /-- The settings were read from a file. -/
  fromFile : Bool

/-- Loads the settings that govern a directory. They may still be invalid. -/
def load (workspace : Workspace) (start : Path) : Except Error Loaded := do
  let directory ← (workspace.absolute start).mapError (.unresolved start)
  match find? workspace directory with
  | none => return ⟨default, directory, false⟩
  | some path =>
    let text ← (workspace.readText path).mapError (.unreadable path)
    let config ← (ofText text).mapError (.malformed path)
    return ⟨config, path.parent?.getD directory, true⟩

end LocaleCatalog.Config
