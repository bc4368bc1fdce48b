import LocaleCatalog.FileTree.Basic

/-!
# A tree beside the disk

A workspace is loaded from the disk piece by piece and written back by its differences:

* `Workspace.passed` are the places that must be loaded before a path can be followed;
* `FileTree.alterations` are the steps that make one tree the other, files that are gone before
  anything new, and a directory before what lies in it.
-/

namespace LocaleCatalog

/-! ## 1. Places on the way -/

/-- The place one step further, whatever stands there. -/
def Location.onward (place : Location) (segment : String) : Location :=
  if Path.isSilent segment then place
  else if segment = ".." then place.dropLast
  else place ++ [segment]

/-- The places that steps lead through, the first and the last among them. -/
def Location.trail (place : Location) : List String → List Location
  | [] => [place]
  | segment :: segments => place :: trail (Location.onward place segment) segments

/-- The places that a path passes, from the root on. A path that is never followed passes none. -/
def Workspace.passed (workspace : Workspace) (path : Path) : List Location :=
  if (Workspace.pathError? path).isSome then []
  else Location.trail [] (workspace.startOf path ++ path.segments)

/-! ## 2. Differences -/

/-- A step from one tree to another. -/
inductive Alteration where
  | removeFile (place : Location)
  | makeDirectory (place : Location)
  | writeFile (place : Location) (bytes : ByteArray)

/-- The step that puts an entry at a place. -/
def Entry.alteration (place : Location) : Entry → Alteration
  | .directory => .makeDirectory place
  | .file bytes => .writeFile place bytes

/-- The steps from a tree to one that has the same directories, or more. -/
def FileTree.alterations (before after : FileTree) : List Alteration :=
  let gone := (before.below []).filter fun found => (after.find? found.1).isNone
  let put := (after.below []).filter fun found => before.find? found.1 ≠ some found.2
  gone.map (fun found => .removeFile found.1) ++ put.map fun found => found.2.alteration found.1

end LocaleCatalog
