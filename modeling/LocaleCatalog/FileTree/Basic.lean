import LocaleCatalog.FileTree.Path

/-!
# File trees

* A `FileTree` says for every place whether a directory or a file stands there. A place
  (`Location`) is the list of names from the root to it, and the root is always a directory. It also
  says where the disk refuses a change (`FileTree.allow`): what can be read need not be writable;
* a `Workspace` is a tree with the directory that relative paths start from;
* `Workspace.locate` finds the place that a path names. Every step must start in a directory, so
  `missing/../x` names nothing, unlike `x`; what stands at the place found is asked afterwards;
* what can go wrong is an `IoError`, with its wording in `IoError.message`.

There are no links, so a place has one path without `.` and `..`.
-/

namespace LocaleCatalog

/-! ## 1. Errors -/

/-- Why the disk refuses a change. -/
inductive DiskRefusal where
  | permissionDenied
  | noSpace
  | readOnly
  deriving DecidableEq, Repr

/-- The wording of a refusal. -/
def DiskRefusal.message : DiskRefusal → String
  | .permissionDenied => "Permission denied (os error 13)"
  | .noSpace => "No space left on device (os error 28)"
  | .readOnly => "Read-only file system (os error 30)"

/-- Why a file could not be used. -/
inductive IoError where
  | notFound
  | alreadyExists
  | notDirectory
  | isDirectory
  | nameTooLong
  | nulInName
  | notUtf8
  | refused (reason : DiskRefusal)
  deriving DecidableEq, Repr

/-- The wording of an error. -/
def IoError.message : IoError → String
  | .notFound => "No such file or directory (os error 2)"
  | .alreadyExists => "File exists (os error 17)"
  | .notDirectory => "Not a directory (os error 20)"
  | .isDirectory => "Is a directory (os error 21)"
  | .nameTooLong => "File name too long (os error 36)"
  | .nulInName => "file name contained an unexpected NUL byte"
  | .notUtf8 => "stream did not contain valid UTF-8"
  | .refused reason => reason.message

/-! ## 2. Trees -/

/-- The names from the root to a place. -/
abbrev Location : Type := List String

/-- What stands at a place. -/
inductive Entry where
  | directory
  | file (bytes : ByteArray)

theorem Entry.file_inj {a b : Array UInt8} : a = b ↔ Entry.file ⟨a⟩ = Entry.file ⟨b⟩ := by
  simp

instance : DecidableEq Entry
  | .directory, .directory => isTrue rfl
  | .directory, .file _ => isFalse nofun
  | .file _, .directory => isFalse nofun
  | .file ⟨_⟩, .file ⟨_⟩ => decidable_of_iff _ Entry.file_inj

/-- Directories and files by their place, and what the disk has against changes there. The root is
    not listed. -/
structure FileTree where
  entries : Std.ExtTreeMap Location Entry
  /-- Why what stands at a place, or might, cannot be made, replaced or taken away. -/
  refusals : Location → Option DiskRefusal

namespace FileTree

/-- A tree with nothing in it but the root. -/
def empty : FileTree := ⟨∅, fun _ => none⟩

/-- What stands at a place. -/
def find? (tree : FileTree) (place : Location) : Option Entry :=
  if place = [] then some .directory else tree.entries[place]?

/-- Puts a directory or a file at a place. -/
def insert (tree : FileTree) (place : Location) (entry : Entry) : FileTree :=
  { tree with entries := tree.entries.insert place entry }

/-- Takes away what stands at a place. -/
def erase (tree : FileTree) (place : Location) : FileTree :=
  { tree with entries := tree.entries.erase place }

/-- Lets a change at a place happen, or says why not. -/
def allow (tree : FileTree) (place : Location) : Except IoError Unit :=
  match tree.refusals place with
  | none => .ok ()
  | some reason => .error (.refused reason)

/-- The rest of a place behind another one, if it lies there or below. -/
def relative? (place : Location) : (below : Location) → Option Location :=
  fun below => if place.isPrefixOf below then some (below.drop place.length) else none

/-- All that stands below a place, each with the names that lead there, in order. -/
def below (tree : FileTree) (place : Location) : List (Location × Entry) :=
  tree.entries.toList.filterMap fun (found, entry) =>
    match relative? place found with
    | some (name :: names) => some (name :: names, entry)
    | _ => none

/-- Takes away what stands at a place and all that stands below. -/
def prune (tree : FileTree) (place : Location) : FileTree :=
  { tree with entries := tree.entries.filter fun found _ => !place.isPrefixOf found }

end FileTree

/-! ## 3. Paths in a tree -/

/-- A tree, and the directory that relative paths start from. -/
structure Workspace where
  tree : FileTree
  current : Location

/-- The longest path, in bytes. -/
def longestPath : Nat := 4095

/-- The longest name, in bytes. -/
def longestName : Nat := 255

namespace FileTree

/-- The place one step further; the step must start in a directory. -/
def step (tree : FileTree) (place : Location) (segment : String) : Except IoError Location :=
  match tree.find? place with
  | none => .error .notFound
  | some (.file _) => .error .notDirectory
  | some .directory =>
    if Path.isSilent segment then .ok place
    else if segment = ".." then .ok place.dropLast
    else if longestName < segment.utf8ByteSize then .error .nameTooLong
    else .ok (place ++ [segment])

/-- The place at the end of the steps. -/
def follow (tree : FileTree) (place : Location) (segments : List String) :
    Except IoError Location :=
  segments.foldlM tree.step place

end FileTree

namespace Workspace

/-- Where the steps of a path start. -/
def startOf (workspace : Workspace) (path : Path) : Location :=
  if path.isAbsolute then [] else workspace.current

/-- What is wrong with a path before it is followed. -/
def pathError? (path : Path) : Option IoError :=
  if '\x00' ∈ path.text.toList then some .nulInName
  else if path.text = "" then some .notFound
  else if longestPath < path.text.utf8ByteSize then some .nameTooLong
  else none

/-- The place that a path names. All places on the way are directories; nothing is said of the
    place itself. -/
def locate (workspace : Workspace) (path : Path) : Except IoError Location :=
  match pathError? path with
  | some error => .error error
  | none => workspace.tree.follow (workspace.startOf path) path.segments

/-- What stands at the place that a path names. -/
def entryAt (workspace : Workspace) (path : Path) : Except IoError Entry := do
  match workspace.tree.find? (← workspace.locate path) with
  | some entry => return entry
  | none => throw .notFound

end Workspace

end LocaleCatalog
