import LocaleCatalog.Catalog.Files
import LocaleCatalog.Merge.Problem

/-!
# Merging a batch

`merge` puts the texts of a batch into the stores.

* It is all or nothing at first (`Plan.make`): there must be a batch, it must have no problems, and
  no store that it names may be malformed. Until then nothing is written;
* then each locale is on its own. A store that cannot be read or written is a failure of its locale
  and does not stop the others (`Plan.writeStores`);
* at the end the batch is taken away, or, if some locales failed, keeps their entries alone.
-/

namespace LocaleCatalog.Merge

/-! ## 1. Errors and reports -/

/-- Why a merge did not happen. -/
inductive Error where
  | nothingToMerge (path : Path)
  | incomplete (problems : List BatchProblem)
  | nothingMerged
  | store (error : StoreError)

/-- The wording of an error. -/
def Error.message : Error → String
  | .nothingToMerge path =>
    s!"Nothing to merge: {path.text} does not exist (run `synchronize` first)"
  | .incomplete problems => s!"Pending batch is incomplete ({problems.length} problem(s))"
  | .nothingMerged => "Internal error: batch passed validation but no entries were merged"
  | .store error => error.message

/-- The locales that failed, with the reasons. -/
abbrev Failures : Type := Std.ExtTreeMap String StoreError

/-- What a merge did. -/
structure Report where
  /-- The number of entries that were merged. -/
  merged : Nat
  /-- The locales that were merged, with the number of their entries. -/
  locales : List (String × Nat)
  failures : Failures
  /-- The batch was taken away. Otherwise it was rewritten. -/
  batchRetired : Bool

/-- No locale failed. -/
def Report.isComplete (report : Report) : Bool :=
  report.failures.isEmpty

/-! ## 2. Entries -/

/-- The entries that have a text, in their order. -/
def filledEntries (entries : Messages) : List (String × String) :=
  entries.toList.filter fun entry => ¬ Text.Blank entry.2

/-- A store with the texts of the entries; blank ones change nothing. -/
def applyEntries (store entries : Messages) : Messages :=
  (filledEntries entries).foldl (fun store entry => store.insert entry.1 entry.2) store

/-! ## 3. The plan -/

/-- A locale whose store was read. -/
structure Target where
  locale : String
  entries : Messages
  store : Messages

/-- What a merge will write. -/
structure Plan where
  batch : Batch
  targets : List Target
  /-- The locales whose store could not be read. -/
  unreadable : Failures

/-- Reads the store of each locale of the batch. One that is malformed ends the merge; one that
    cannot be read is set aside. -/
def readTargets (catalog : Catalog) (workspace : Workspace) :
    List (String × Messages) → Except StoreError (List Target × Failures)
  | [] => .ok ([], ∅)
  | (locale, entries) :: more =>
    match catalog.loadStore locale workspace with
    | .ok store => do
      let (targets, failures) ← readTargets catalog workspace more
      return (⟨locale, entries, store⟩ :: targets, failures)
    | .error (.malformed path malformation) => .error (.malformed path malformation)
    | .error error => do
      let (targets, failures) ← readTargets catalog workspace more
      return (targets, failures.insert locale error)

/-- Plans a merge, or says why there is none. -/
def Plan.make (catalog : Catalog) (workspace : Workspace) : Except Error Plan := do
  match ← (catalog.loadBatch workspace).mapError .store with
  | none => throw (.nothingToMerge catalog.batch)
  | some batch =>
    let canonical ←
      (catalog.loadStore catalog.locales.canonical workspace).mapError .store
    let problems := batch.problems catalog.locales canonical
    if problems ≠ [] then throw (.incomplete problems)
    let (targets, unreadable) ← (readTargets catalog workspace batch.toList).mapError .store
    return { batch, targets, unreadable }

/-! ## 4. Writing -/

/-- What became of the targets. -/
structure Written where
  /-- The number of entries that were written. -/
  merged : Nat
  /-- The locales whose store was written, with the number of their entries. -/
  locales : List (String × Nat)
  /-- The locales whose store could not be written. -/
  failures : Failures

/-- Writes the stores of the targets that have entries with a text. -/
def writeTargets (catalog : Catalog) : List Target → FileAction Error Written
  | [] => return ⟨0, [], ∅⟩
  | target :: more => do
    let count := (filledEntries target.entries).length
    if count = 0 then writeTargets catalog more
    else
      let saved ← FileAction.outcome
        (catalog.saveStore target.locale (applyEntries target.store target.entries))
      let ⟨merged, locales, failures⟩ ← writeTargets catalog more
      match saved with
      | .ok () => return ⟨count + merged, (target.locale, count) :: locales, failures⟩
      | .error error => return ⟨merged, locales, failures.insert target.locale error⟩

/-- The entries of the batch that belong to the locales that failed. -/
def remaining (batch : Batch) (failures : Failures) : Batch :=
  batch.filter fun locale _ => failures.contains locale

/-- Takes the batch away, or leaves in it what could not be merged. `true` if it was taken away. -/
def retireBatch (catalog : Catalog) (batch : Batch) (failures : Failures) :
    FileAction StoreError Bool :=
  if failures.isEmpty then do
    let _ ← catalog.removeBatch
    return true
  else do
    catalog.saveBatch (remaining batch failures)
    return false

/-- Writes all files of the plan. -/
def Plan.commit (plan : Plan) (catalog : Catalog) : FileAction Error Report := do
  let ⟨merged, locales, unwritten⟩ ← writeTargets catalog plan.targets
  let failures := plan.unreadable ∪ unwritten
  if merged = 0 ∧ failures.isEmpty then throw .nothingMerged
  let batchRetired ← (retireBatch catalog plan.batch failures).mapError .store
  return { merged, locales, failures, batchRetired }

/-- Puts the texts of the batch into the stores. -/
def merge (catalog : Catalog) : FileAction Error Report := do
  (← FileAction.inspect (Plan.make catalog)).commit catalog

end LocaleCatalog.Merge
