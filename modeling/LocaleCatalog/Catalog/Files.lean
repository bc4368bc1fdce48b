import LocaleCatalog.Catalog.LocaleSet
import LocaleCatalog.Catalog.Messages
import LocaleCatalog.FileTree.Change

/-!
# The files of a catalog

A catalog keeps one store file for each locale and one batch file for what is still to be
translated.

* A file that is missing or blank reads as nothing (`readFile`): no messages, or no batch;
* anything else must have the form of the file, and a fault names the file (`StoreError`);
* writing makes the directories that the file lies in, and leaves exactly the written form of the
  value (`writeFile`).
-/

namespace LocaleCatalog

/-! ## 1. Errors -/

/-- Why a file of the catalog could not be read or written. -/
inductive StoreError where
  | io (path : Path) (error : IoError)
  | malformed (path : Path) (malformation : Json.Malformation)

/-- The wording of an error. -/
def StoreError.message : StoreError → String
  | .io path error => s!"Failed to access {path.text}: {error.message}"
  | .malformed path malformation => s!"Malformed file {path.text}: {malformation.message}"

/-- What lies behind an error. -/
def StoreError.cause : StoreError → String
  | .io _ error => error.message
  | .malformed _ malformation => malformation.message

/-! ## 2. Reading and writing -/

/-- Reads a file of a given form. `none` if it is missing or blank. -/
def readFile {α : Type} (reader : Json.Reader α) (path : Path) (workspace : Workspace) :
    Except StoreError (Option α) :=
  match workspace.readText path with
  | .error .notFound => .ok none
  | .error error => .error (.io path error)
  | .ok text =>
    if Text.Blank text then .ok none
    else
      match Json.document reader text with
      | .ok value => .ok (some value)
      | .error malformation => .error (.malformed path malformation)

/-- Makes the directories that a file lies in. -/
def makeParents (path : Path) : FileAction StoreError Unit :=
  match path.parent? with
  | none => return
  | some parent =>
    if parent.text = "" then return
    else (FileAction.makeDirectories parent).mapError (.io parent)

/-- Writes a file, and makes the directories that it lies in. -/
def writeFile (path : Path) (text : String) : FileAction StoreError Unit := do
  makeParents path
  (FileAction.writeText path text).mapError (.io path)

/-! ## 3. The catalog -/

/-- The locales of a project and where their files are. -/
structure Catalog where
  locales : LocaleSet
  /-- The directory of the store files. -/
  stores : Path
  /-- The batch file. -/
  batch : Path

namespace Catalog

/-- The store file of a locale. -/
def storePath (catalog : Catalog) (locale : String) : Path :=
  catalog.stores / (locale ++ ".json")

/-- The messages of a locale. -/
def loadStore (catalog : Catalog) (locale : String) (workspace : Workspace) :
    Except StoreError Messages := do
  return (← readFile Messages.reader (catalog.storePath locale) workspace).getD ∅

/-- Replaces the messages of a locale. -/
def saveStore (catalog : Catalog) (locale : String) (messages : Messages) :
    FileAction StoreError Unit :=
  writeFile (catalog.storePath locale) messages.write

/-- The batch, if there is one. -/
def loadBatch (catalog : Catalog) (workspace : Workspace) : Except StoreError (Option Batch) :=
  readFile Batch.reader catalog.batch workspace

/-- Replaces the batch. -/
def saveBatch (catalog : Catalog) (batch : Batch) : FileAction StoreError Unit :=
  writeFile catalog.batch batch.write

/-- Takes the batch file away. `false` if there was none. -/
def removeBatch (catalog : Catalog) : FileAction StoreError Bool :=
  (FileAction.removeFile catalog.batch).mapError (.io catalog.batch)

end Catalog

end LocaleCatalog
