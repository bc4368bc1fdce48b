import LocaleCatalog.FileTree.Access

/-!
# Changing files

A `FileAction` changes a workspace step by step and may end with an error; what it changed before
the error stays changed.

* `makeDirectories` makes a directory and those it lies in. It goes up until one can be made or
  stands already, and comes down again;
* `writeText` replaces the contents of a file, and makes the file where there is none;
* `removeFile` takes a file away, and says whether there was one.

Where the disk refuses a change, the change fails, and nothing is changed.
-/

namespace LocaleCatalog

/-- A change to a workspace that may end with an error. -/
abbrev FileAction (ε α : Type) : Type := ExceptT ε (StateM Workspace) α

namespace FileAction

/-! ## 1. Building blocks -/

/-- Asks a question about the workspace as it is. -/
def inspect {ε α : Type} (question : Workspace → Except ε α) : FileAction ε α := do
  match question (← get) with
  | .ok answer => return answer
  | .error error => throw error

/-- The same action with another kind of error. -/
def mapError {ε ε' α : Type} (f : ε → ε') (action : FileAction ε α) : FileAction ε' α :=
  ExceptT.mk do
    match ← action.run with
    | .ok a => return .ok a
    | .error e => return .error (f e)

/-- The outcome of an action; the error is a value and ends nothing. -/
def outcome {ε ε' α : Type} (action : FileAction ε α) : FileAction ε' (Except ε α) :=
  ExceptT.mk do return .ok (← action.run)

/-- Changes the tree of the workspace. -/
def modifyTree {ε : Type} (change : FileTree → FileTree) : FileAction ε Unit :=
  modify fun workspace => { workspace with tree := change workspace.tree }

/-! ## 2. What a change is aimed at -/

/-- The last step of a path, which a change is about. -/
structure Target where
  place : Location
  /-- The last piece is a name, and not a dot or two. -/
  named : Bool
  /-- A slash stands behind the last piece. -/
  slash : Bool

/-- Finds what a change is aimed at. Nothing need stand there; where it would lie must be a
    directory. -/
def target (path : Path) (workspace : Workspace) : Except IoError Target := do
  if let some error := Workspace.pathError? path then throw error
  let backwards := path.segments.reverse
  match backwards.dropWhile (· = "") with
  | [] => return ⟨[], false, true⟩
  | last :: before =>
    let parent ← workspace.tree.follow (workspace.startOf path) before.reverse
    let place ← workspace.tree.step parent last
    return ⟨place, last ≠ "." ∧ last ≠ "..", backwards.head? = some ""⟩

/-! ## 3. Directories -/

/-- Makes one directory, where nothing stands yet. -/
def makeDirectory (path : Path) : FileAction IoError Unit := do
  let target ← inspect (target path)
  if ((← get).tree.find? target.place).isSome then throw .alreadyExists
  inspect (·.tree.allow target.place)
  modifyTree (·.insert target.place .directory)

/-- Makes the first path a directory, going up through the others, its ancestors. -/
def makeDirectoriesFrom : List Path → FileAction IoError Unit
  | [] => return
  | path :: ancestors => do
    if path.text = "" then return
    match ← outcome (makeDirectory path) with
    | .ok () => return
    | .error .notFound =>
      makeDirectoriesFrom ancestors
      match ← outcome (makeDirectory path) with
      | .ok () => return
      | .error error => if (← get).isDirectory path then return else throw error
    | .error error => if (← get).isDirectory path then return else throw error

/-- Makes a directory and those it lies in. A directory that stands already is left as it is. -/
def makeDirectories (path : Path) : FileAction IoError Unit :=
  makeDirectoriesFrom (path :: path.ancestors)

/-! ## 4. Files -/

/-- Replaces the contents of a file. -/
def writeBytes (path : Path) (bytes : ByteArray) : FileAction IoError Unit := do
  let target ← inspect (target path)
  if target.slash ∨ ¬ target.named then throw .isDirectory
  if (← get).tree.find? target.place = some .directory then throw .isDirectory
  inspect (·.tree.allow target.place)
  modifyTree (·.insert target.place (.file bytes))

/-- Replaces the contents of a file by a text. -/
def writeText (path : Path) (text : String) : FileAction IoError Unit :=
  writeBytes path text.toUTF8

/-- Takes a file away. `false` if there is nothing at the path. -/
def removeFile (path : Path) : FileAction IoError Bool := do
  match ← outcome (inspect (target path)) with
  | .error .notFound => return false
  | .error error => throw error
  | .ok target =>
    if ¬ target.named then throw .isDirectory
    match (← get).tree.find? target.place with
    | none => return false
    | some .directory => throw .isDirectory
    | some (.file _) =>
      if target.slash then throw .notDirectory
      inspect (·.tree.allow target.place)
      modifyTree (·.erase target.place)
      return true

/-- Takes away what stands at a path, and all that stands below it. -/
def removeAll (path : Path) : FileAction IoError Unit := do
  let place ← inspect (·.locate path)
  inspect (·.tree.allow place)
  modifyTree (·.prune place)

end FileAction

end LocaleCatalog
