import LocaleCatalog.Catalog.Messages
import LocaleCatalog.FileTree.Access
import LocaleCatalog.Source.Key
import LocaleCatalog.Text.Lossy

/-!
# The keys of the sources

The keys of a project are those of all its source files together (`keysOfFiles`). Files are read as
bytes, whatever their encoding; a file that cannot be read ends the search, since its keys would be
missing everywhere. `KeyDiff` tells what a new set of keys adds to a store and takes from it.
-/

namespace LocaleCatalog.Sync

/-! ## 1. Collecting -/

/-- Why the keys of the sources are not known. -/
inductive SourceError where
  | unreadable (path : Path) (error : IoError)
  | noSourceFiles (root : Path)

/-- The wording of an error. -/
def SourceError.message : SourceError → String
  | .unreadable path error => s!"Failed to read source file {path.text}: {error.message}"
  | .noSourceFiles root => s!"No source files found under '{root.text}'"

/-- The keys in the bytes of a source file. -/
def keysOfBytes (callName : String) (bytes : ByteArray) : List String :=
  Source.keysOf callName (String.ofList (Text.decodeLossy bytes.toList))

/-- The keys of all the files. -/
def keysOfFiles (workspace : Workspace) (callName : String) (paths : List Path) :
    Except SourceError KeySet :=
  paths.foldlM (fun keys path =>
    match workspace.readBytes path with
    | .ok bytes => .ok (keys.insertMany (keysOfBytes callName bytes))
    | .error error => .error (.unreadable path error)) ∅

/-! ## 2. Changes -/

/-- The keys that are new, and those that are gone, in their order. -/
structure KeyDiff where
  added : List String
  removed : List String

/-- Compares a set of keys with the keys of a store. -/
def KeyDiff.between (keys : KeySet) (existing : Messages) : KeyDiff where
  added := keys.toList.filter fun key => !existing.contains key
  removed := existing.keys.filter fun key => !keys.contains key

end LocaleCatalog.Sync
