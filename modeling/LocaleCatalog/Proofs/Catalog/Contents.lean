import LocaleCatalog.Proofs.Catalog.Storage

/-!
# What the files of a catalog say

A run reads all files of a catalog and writes them. What it read and what it wrote are `Contents`:

* `Catalog.Loads`: the files can be loaded, in whatever form they are written, with these contents;
* `Catalog.Holds`: the files are the written form of the contents, so that two workspaces that hold
  the same contents have the same bytes in all files of the catalog (`Catalog.entryAt_eq_of_holds`).
  What is held can be loaded (`Catalog.Holds.loads`);
* `Catalog.AcceptedFor`: the disk accepts that the contents are written.
-/

namespace LocaleCatalog

open FileAction (runIn)
open Workspace (Changed NoStricter)

/-- What the files of a catalog say: the messages of each locale and, if there is one, the batch. -/
structure Contents where
  stores : String → Messages
  batch : Option Batch

namespace Catalog

variable {catalog : Catalog} {before after workspace : Workspace} {contents : Contents}
  {stores : String → Messages}

/-! ## 1. Loaded and held -/

/-- The files can be loaded, with these contents. -/
structure Loads (catalog : Catalog) (workspace : Workspace) (contents : Contents) : Prop where
  store : ∀ locale ∈ catalog.locales.locales,
    catalog.loadStore locale workspace = .ok (contents.stores locale)
  batch : catalog.loadBatch workspace = .ok contents.batch

/-- Each store is a file with the written form of its messages. -/
def HoldsStores (catalog : Catalog) (workspace : Workspace) (stores : String → Messages) : Prop :=
  ∀ locale ∈ catalog.locales.locales,
    workspace.readBytes (catalog.storePath locale) = .ok (stores locale).write.toUTF8

/-- The batch is a file with its written form; without a batch there is no file. -/
def HoldsBatch (catalog : Catalog) (workspace : Workspace) : Option Batch → Prop
  | none => workspace.entryAt catalog.batch = .error .notFound
  | some batch => workspace.readBytes catalog.batch = .ok batch.write.toUTF8

/-- The files are the written form of the contents. -/
structure Holds (catalog : Catalog) (workspace : Workspace) (contents : Contents) : Prop where
  stores : catalog.HoldsStores workspace contents.stores
  batch : catalog.HoldsBatch workspace contents.batch

/-- The disk accepts changes of the files that hold the contents: of all stores, and of the batch if
    there is one. -/
structure AcceptedFor (catalog : Catalog) (workspace : Workspace) (contents : Contents) :
    Prop where
  store : ∀ locale ∈ catalog.locales.locales, workspace.Accepts (catalog.storePath locale)
  batch : contents.batch ≠ none → workspace.Accepts catalog.batch

theorem AcceptedFor.of_noStricter (h : catalog.AcceptedFor before contents)
    (hnoStricter : NoStricter before after) : catalog.AcceptedFor after contents :=
  ⟨fun locale hlocale => hnoStricter.accepts (h.store locale hlocale),
    fun hsome => hnoStricter.accepts (h.batch hsome)⟩

/-- If there is a batch, these are all files of the catalog. -/
theorem AcceptedFor.accepted (h : catalog.AcceptedFor workspace contents)
    (hsome : contents.batch ≠ none) : catalog.Accepted workspace := by
  intro path hpath
  rcases List.mem_cons.1 hpath with rfl | hstore
  · exact h.batch hsome
  · obtain ⟨locale, hlocale, rfl⟩ := List.mem_map.1 hstore
    exact h.store locale hlocale

theorem Accepted.acceptedFor (h : catalog.Accepted workspace) :
    catalog.AcceptedFor workspace contents :=
  ⟨fun _ hlocale => h.store hlocale, fun _ => h.batch⟩

theorem HoldsStores.readFile (h : catalog.HoldsStores workspace stores) {locale : String}
    (hlocale : locale ∈ catalog.locales.locales) :
    readFile Messages.reader (catalog.storePath locale) workspace = .ok (some (stores locale)) :=
  readFile_messages (h locale hlocale)

theorem HoldsStores.loadStore (h : catalog.HoldsStores workspace stores) {locale : String}
    (hlocale : locale ∈ catalog.locales.locales) :
    catalog.loadStore locale workspace = .ok (stores locale) :=
  loadStore_of_readFile (h.readFile hlocale)

theorem HoldsBatch.loadBatch {batch : Option Batch} (h : catalog.HoldsBatch workspace batch) :
    catalog.loadBatch workspace = .ok batch := by
  cases batch with
  | none => exact loadBatch_of_notFound h
  | some batch => exact readFile_batch h

/-- What is held can be loaded. -/
theorem Holds.loads (h : catalog.Holds workspace contents) : catalog.Loads workspace contents :=
  ⟨fun _ hlocale => h.stores.loadStore hlocale, h.batch.loadBatch⟩

/-- The same contents are held by the same files. -/
theorem entryAt_eq_of_holds {contents' : Contents} (h : catalog.Holds before contents)
    (h' : catalog.Holds after contents')
    (hstores : ∀ locale ∈ catalog.locales.locales,
      contents.stores locale = contents'.stores locale)
    (hbatch : contents.batch = contents'.batch) :
    ∀ path ∈ catalog.paths, before.entryAt path = after.entryAt path := by
  have hfile {path : Path} {bytes : ByteArray} (hbefore : before.readBytes path = .ok bytes)
      (hafter : after.readBytes path = .ok bytes) : before.entryAt path = after.entryAt path := by
    rw [Workspace.readBytes_eq_ok, ← Workspace.entryAt_eq_ok] at hbefore hafter
    rw [hbefore, hafter]
  intro path hpath
  rcases List.mem_cons.1 hpath with rfl | hstore
  · have hheld := h.batch
    have hheld' := h'.batch
    rw [← hbatch] at hheld'
    cases hcase : contents.batch with
    | none =>
      rw [hcase] at hheld hheld'
      exact hheld.trans hheld'.symm
    | some batch =>
      rw [hcase] at hheld hheld'
      exact hfile hheld hheld'
  · obtain ⟨locale, hlocale, rfl⟩ := List.mem_map.1 hstore
    exact hfile (h.stores locale hlocale) (hstores locale hlocale ▸ h'.stores locale hlocale)

/-! ## 2. What is held stays held -/

/-- Stores stay what they are while the batch is written. -/
theorem HoldsStores.of_changed (hapart : catalog.Apart before.current)
    (h : catalog.HoldsStores before stores)
    (hchanged : Changed {catalog.batchPlace before.current} {catalog.batchPlace before.current}
      before after) : catalog.HoldsStores after stores := fun locale hlocale =>
  (hapart.kept_of_changed_batch hlocale hchanged).contents _ (h locale hlocale)

/-- The batch stays what it is while stores are written. -/
theorem Apart.readBytes_batch (hapart : catalog.Apart before.current) {locales : List String}
    (hlocales : locales ⊆ catalog.locales.locales) {reached : Set Location}
    (hchanged : Changed (catalog.storePlaces before.current locales) reached before after)
    {bytes : ByteArray} (hread : before.readBytes catalog.batch = .ok bytes) :
    after.readBytes catalog.batch = .ok bytes := by
  refine hchanged.readBytes_eq hapart.plain_batch ?_ hread
  rintro _ ⟨locale, hlocale, rfl⟩
  exact hapart.store_batch (hlocales hlocale)

/-- What was held at no batch stays away. -/
theorem removeBatch_of_holdsBatch (hapart : catalog.Apart before.current)
    (h : catalog.HoldsBatch before none) :
    runIn catalog.removeBatch before = (.ok false, before) := by
  unfold Catalog.removeBatch
  rw [FileAction.run_mapError, FileAction.run_removeFile_of_notFound hapart.plain_batch h]
  rfl

end Catalog

end LocaleCatalog
