import Mathlib.Data.List.Pairwise
import LocaleCatalog.Catalog.Files
import LocaleCatalog.Proofs.Catalog.Messages
import LocaleCatalog.Proofs.FileTree.Standing

/-!
# The files of a catalog, written and read

A catalog does not ask whether its files get into each other's way. `Catalog.Apart` says that they
do not: no path goes up, and no file lies at or below another. Then

* a store or a batch that was saved is what is read (`readBytes_of_saveStore`,
  `saveBatch_spec`), also after other files were written (`Apart.readBytes_store`);
* saving changes one file (`within_saveStore`, `removeBatch_spec`), and none if it fails
  (`changed_of_writeFile_error`). The stores are kept while the batch is written
  (`Apart.kept_of_changed_batch`);
* a file that stands can be written again if the disk accepts that, with no change at all if it
  holds the same already (`exists_run_writeFile`, `run_writeFile_self`). Where the disk refuses it,
  the write fails (`run_writeFile_of_readBytes`);
* whatever the changes of a tree move along, saving moves along, too (`moves_writeFile`).
-/

namespace LocaleCatalog

open FileAction (runIn Within Moves Changes)
open Workspace (Changed Kept Heeded NoStricter)

/-! ## 1. Files apart -/

namespace Catalog

/-- The paths of all files of a catalog: its batch and its stores. -/
def paths (catalog : Catalog) : List Path :=
  catalog.batch :: catalog.locales.locales.map catalog.storePath

/-- No path of the catalog goes up, and none of its files lies at or below another one. -/
structure Apart (catalog : Catalog) (current : Location) : Prop where
  plain : ∀ path ∈ catalog.paths, path.IsPlain
  apart : catalog.paths.Pairwise fun path other =>
    ¬ path.placeFrom current <+: other.placeFrom current ∧
      ¬ other.placeFrom current <+: path.placeFrom current

instance (catalog : Catalog) (current : Location) : Decidable (catalog.Apart current) :=
  decidable_of_iff (_ ∧ _) ⟨fun h => ⟨h.1, h.2⟩, fun h => ⟨h.plain, h.apart⟩⟩

/-- Where the store of a locale stands. -/
def storePlace (catalog : Catalog) (current : Location) (locale : String) : Location :=
  (catalog.storePath locale).placeFrom current

/-- Where the batch stands. -/
def batchPlace (catalog : Catalog) (current : Location) : Location :=
  catalog.batch.placeFrom current

/-- Where the stores of some locales stand. -/
def storePlaces (catalog : Catalog) (current : Location) (locales : List String) : Set Location :=
  {place | ∃ locale ∈ locales, catalog.storePlace current locale = place}

/-- Where the files of the catalog stand. -/
def places (catalog : Catalog) (current : Location) : Set Location :=
  {place | ∃ path ∈ catalog.paths, path.placeFrom current = place}

/-- Where the files of the catalog other than the store of a locale stand. -/
def otherPlaces (catalog : Catalog) (current : Location) (locale : String) : Set Location :=
  {place | place = catalog.batchPlace current ∨ ∃ other ∈ catalog.locales.locales,
    locale ≠ other ∧ place = catalog.storePlace current other}

/-- The disk accepts changes of all files of the catalog. -/
def Accepted (catalog : Catalog) (workspace : Workspace) : Prop :=
  ∀ path ∈ catalog.paths, workspace.Accepts path

instance (catalog : Catalog) (workspace : Workspace) : Decidable (catalog.Accepted workspace) :=
  inferInstanceAs (Decidable (∀ path ∈ catalog.paths, workspace.Accepts path))

variable {catalog : Catalog} {current : Location} {locale other : String}

theorem batchPlace_mem_otherPlaces : catalog.batchPlace current ∈ catalog.otherPlaces current locale :=
  .inl rfl

theorem storePlace_mem_otherPlaces (h : other ∈ catalog.locales.locales) (hne : locale ≠ other) :
    catalog.storePlace current other ∈ catalog.otherPlaces current locale :=
  .inr ⟨other, h, hne, rfl⟩

theorem storePlaces_subset {locales more : List String} (h : locales ⊆ more) :
    catalog.storePlaces current locales ⊆ catalog.storePlaces current more :=
  fun _ ⟨locale, hlocale, hplace⟩ => ⟨locale, h hlocale, hplace⟩

theorem singleton_subset_storePlaces {locales : List String} (h : locale ∈ locales) :
    {catalog.storePlace current locale} ⊆ catalog.storePlaces current locales :=
  Set.singleton_subset_iff.2 ⟨locale, h, rfl⟩

theorem batch_mem_paths : catalog.batch ∈ catalog.paths :=
  List.mem_cons_self

theorem storePath_mem_paths (h : locale ∈ catalog.locales.locales) :
    catalog.storePath locale ∈ catalog.paths :=
  List.mem_cons_of_mem _ (List.mem_map_of_mem h)

theorem batchPlace_mem_places : catalog.batchPlace current ∈ catalog.places current :=
  ⟨_, batch_mem_paths, rfl⟩

theorem storePlace_mem_places (h : locale ∈ catalog.locales.locales) :
    catalog.storePlace current locale ∈ catalog.places current :=
  ⟨_, storePath_mem_paths h, rfl⟩

theorem batchPlace_subset_places : {catalog.batchPlace current} ⊆ catalog.places current :=
  Set.singleton_subset_iff.2 batchPlace_mem_places

theorem storePlaces_subset_places {locales : List String} (h : locales ⊆ catalog.locales.locales) :
    catalog.storePlaces current locales ⊆ catalog.places current :=
  fun _ ⟨_, hlocale, hplace⟩ => ⟨_, storePath_mem_paths (h hlocale), hplace⟩

namespace Accepted

variable {before after workspace : Workspace}

theorem batch (h : catalog.Accepted workspace) : workspace.Accepts catalog.batch :=
  h _ batch_mem_paths

theorem store (h : catalog.Accepted workspace) (hlocale : locale ∈ catalog.locales.locales) :
    workspace.Accepts (catalog.storePath locale) :=
  h _ (storePath_mem_paths hlocale)

theorem of_noStricter (h : catalog.Accepted before) (hnoStricter : NoStricter before after) :
    catalog.Accepted after :=
  fun path hpath => hnoStricter.accepts (h path hpath)

end Accepted

namespace Apart

theorem plain_batch (h : catalog.Apart current) : catalog.batch.IsPlain :=
  h.plain _ batch_mem_paths

theorem plain_store (h : catalog.Apart current) (hlocale : locale ∈ catalog.locales.locales) :
    (catalog.storePath locale).IsPlain :=
  h.plain _ (storePath_mem_paths hlocale)

theorem batch_store (h : catalog.Apart current) (hlocale : locale ∈ catalog.locales.locales) :
    ¬ catalog.batchPlace current <+: catalog.storePlace current locale :=
  ((List.pairwise_cons.1 h.apart).1 _ (List.mem_map_of_mem hlocale)).1

theorem store_batch (h : catalog.Apart current) (hlocale : locale ∈ catalog.locales.locales) :
    ¬ catalog.storePlace current locale <+: catalog.batchPlace current :=
  ((List.pairwise_cons.1 h.apart).1 _ (List.mem_map_of_mem hlocale)).2

theorem store_store (h : catalog.Apart current) (hlocale : locale ∈ catalog.locales.locales)
    (hother : other ∈ catalog.locales.locales) (hne : locale ≠ other) :
    ¬ catalog.storePlace current locale <+: catalog.storePlace current other := by
  have hstores := List.pairwise_map.1 (List.pairwise_cons.1 h.apart).2
  have hsymm : Std.Symm fun locale other =>
      ¬ (catalog.storePath locale).placeFrom current <+:
          (catalog.storePath other).placeFrom current ∧
        ¬ (catalog.storePath other).placeFrom current <+:
          (catalog.storePath locale).placeFrom current := ⟨fun _ _ h => h.symm⟩
  exact (hstores.forall hlocale hother hne).1

/-- No other file of the catalog stands on the way to a store. -/
theorem not_prefix_store (h : catalog.Apart current) (hlocale : locale ∈ catalog.locales.locales)
    {place : Location} (hplace : place ∈ catalog.otherPlaces current locale) :
    ¬ place <+: catalog.storePlace current locale := by
  rcases hplace with rfl | ⟨other, hother, hne, rfl⟩
  · exact h.batch_store hlocale
  · exact h.store_store hother hlocale hne.symm

/-- No file of the catalog stands on the way to another one. -/
theorem not_prefix (h : catalog.Apart current) {path other : Path} (hpath : path ∈ catalog.paths)
    (hother : other ∈ catalog.paths) (hne : path ≠ other) :
    ¬ path.placeFrom current <+: other.placeFrom current := by
  have hsymm : Std.Symm fun path other : Path =>
      ¬ path.placeFrom current <+: other.placeFrom current ∧
        ¬ other.placeFrom current <+: path.placeFrom current := ⟨fun _ _ h => h.symm⟩
  exact (h.apart.forall hpath hother hne).1

theorem eq_of_prefix (h : catalog.Apart current) {path : Path} (hpath : path ∈ catalog.paths)
    {place : Location} (hplace : place ∈ catalog.places current)
    (hon : path.placeFrom current <+: place) : path.placeFrom current = place := by
  obtain ⟨other, hother, rfl⟩ := hplace
  by_contra hne
  exact h.not_prefix hpath hother (fun heq => hne (heq ▸ rfl)) hon

/-- Each locale has a store of its own, and none is the batch. -/
theorem storePath_ne (h : catalog.Apart current) (hlocale : locale ∈ catalog.locales.locales)
    (hother : other ∈ catalog.locales.locales) (hne : locale ≠ other) :
    catalog.storePath locale ≠ catalog.storePath other := by
  intro heq
  exact h.store_store hlocale hother hne (by simp only [storePlace, heq, List.prefix_refl])

theorem storePath_ne_batch (h : catalog.Apart current) (hlocale : locale ∈ catalog.locales.locales) :
    catalog.storePath locale ≠ catalog.batch := by
  intro heq
  exact h.store_batch hlocale (by simp only [storePlace, batchPlace, heq, List.prefix_refl])

theorem eq_of_store_prefix (h : catalog.Apart current) (hlocale : locale ∈ catalog.locales.locales)
    {place : Location} (hplace : place ∈ catalog.places current)
    (hon : catalog.storePlace current locale <+: place) :
    catalog.storePlace current locale = place :=
  h.eq_of_prefix (storePath_mem_paths hlocale) hplace hon

end Apart

end Catalog

/-! ## 2. Reading -/

variable {α : Type} {reader : Json.Reader α} {path : Path} {before after : Workspace}

/-- A file that was written from a value, and has its form, reads as this value. -/
theorem readFile_of_readBytes {text : String} {value : α}
    (hread : after.readBytes path = .ok text.toUTF8) (hblank : ¬ Text.Blank text)
    (hvalue : Json.document reader text = .ok value) :
    readFile reader path after = .ok (some value) := by
  unfold readFile
  rw [Workspace.readText_eq_ok.2 hread]
  dsimp only
  rw [if_neg hblank, hvalue]

/-- Only the bytes of a file count. -/
theorem readFile_congr (h : after.readBytes path = before.readBytes path) :
    readFile reader path after = readFile reader path before := by
  unfold readFile Workspace.readText
  rw [h]

/-- What reads as something is a file that can be read. -/
theorem exists_readBytes_of_readFile {value : α}
    (h : readFile reader path before = .ok (some value)) :
    ∃ bytes, before.readBytes path = .ok bytes := by
  cases htext : before.readText path with
  | ok text => exact ⟨_, Workspace.readText_eq_ok.1 htext⟩
  | error error =>
    unfold readFile at h
    rw [htext] at h
    cases error <;> cases h

/-- A file that was kept reads as before, if it was there. -/
theorem readFile_of_kept {value : α} (hread : readFile reader path before = .ok (some value))
    (hkept : Kept path before after) : readFile reader path after = .ok (some value) := by
  obtain ⟨bytes, hbytes⟩ := exists_readBytes_of_readFile hread
  rw [readFile_congr ((hkept.contents bytes hbytes).trans hbytes.symm), hread]

/-- The file holds the written form of the messages. -/
theorem readFile_messages {messages : Messages}
    (hread : after.readBytes path = .ok messages.write.toUTF8) :
    readFile Messages.reader path after = .ok (some messages) :=
  readFile_of_readBytes hread messages.not_blank_write messages.document_write

/-- The file holds the written form of the batch. -/
theorem readFile_batch {batch : Batch} (hread : after.readBytes path = .ok batch.write.toUTF8) :
    readFile Batch.reader path after = .ok (some batch) :=
  readFile_of_readBytes hread batch.not_blank_write batch.document_write

/-- A file that is not there reads as nothing. -/
theorem readFile_of_notFound (h : after.entryAt path = .error .notFound) :
    readFile reader path after = .ok none := by
  unfold readFile Workspace.readText Workspace.readBytes
  rw [h]
  rfl

/-- A file reads as nothing just if it is missing or blank. -/
theorem readFile_eq_none_iff : readFile reader path after = .ok none ↔
    after.readText path = .error .notFound ∨
      ∃ text, after.readText path = .ok text ∧ Text.Blank text := by
  unfold readFile
  constructor
  · intro h
    split at h
    · rename_i hmissing
      exact .inl hmissing
    · cases h
    · rename_i text htext
      split at h
      · rename_i hblank
        exact .inr ⟨text, htext, hblank⟩
      · split at h <;> cases h
  · rintro (hmissing | ⟨text, htext, hblank⟩)
    · rw [hmissing]
    · rw [htext]
      dsimp only
      rw [if_pos hblank]

/-! ## 3. Writing -/

section Moves

variable {related : Workspace → Workspace → Prop} [Changes related]

theorem moves_makeParents (path : Path) : Moves related (makeParents path) := by
  unfold makeParents
  split
  · exact FileAction.moves_pure ()
  · split
    · exact FileAction.moves_pure ()
    · exact (FileAction.moves_makeDirectoriesFrom fun other _ _ =>
        Changes.makeDirectory other).mapError _

theorem moves_writeFile (path : Path) (text : String) : Moves related (writeFile path text) :=
  (moves_makeParents path).bind fun _ => (Changes.writeBytes path text.toUTF8).mapError _

end Moves

variable {current : Location} {text : String}

theorem within_makeParents (hplain : path.IsPlain) (written : Set Location) :
    Within current written {path.placeFrom current} (makeParents path) := by
  unfold makeParents
  split
  · exact FileAction.moves_pure ()
  · rename_i parent hparent
    split
    · exact FileAction.moves_pure ()
    · rename_i hne
      exact (FileAction.within_makeDirectories hplain hparent hne).mapError _

theorem within_writeFile (hplain : path.IsPlain) (text : String) :
    Within current {path.placeFrom current} {path.placeFrom current} (writeFile path text) :=
  (within_makeParents hplain _).bind fun _ =>
    (FileAction.within_writeBytes hplain text.toUTF8).mapError _

/-- What was written is what is read. -/
theorem readBytes_of_writeFile (h : runIn (writeFile path text) before = (.ok (), after)) :
    after.readBytes path = .ok text.toUTF8 := by
  obtain ⟨_, between, -, hwrite⟩ := FileAction.run_bind_eq_ok.1 h
  exact (FileAction.writeBytes_spec (FileAction.run_mapError_eq_ok.1 hwrite)).1

/-- What was written was accepted. -/
theorem accepts_of_writeFile (h : runIn (writeFile path text) before = (.ok (), after)) :
    before.Accepts path := by
  obtain ⟨_, between, hparents, hwrite⟩ := FileAction.run_bind_eq_ok.1 h
  have hheeded : Heeded before between := (moves_makeParents path).of_run hparents
  exact hheeded.accepts_iff.1
    (FileAction.accepts_of_writeBytes (FileAction.run_mapError_eq_ok.1 hwrite))

/-- A write that fails leaves all files as they are. -/
theorem changed_of_writeFile_error (hplain : path.IsPlain) {error : StoreError}
    (h : runIn (writeFile path text) before = (.error error, after)) :
    Changed ∅ {path.placeFrom before.current} before after := by
  have hparents := within_makeParents hplain ∅ before rfl
  unfold writeFile at h
  rw [FileAction.run_bind] at h
  rcases hrun : runIn (makeParents path) before with ⟨result, between⟩
  rw [hrun] at h hparents
  cases result with
  | error _ =>
    cases h
    exact hparents
  | ok =>
    dsimp only at h
    rw [FileAction.run_mapError] at h
    rcases hwrite : runIn (FileAction.writeText path text) between with ⟨result, last⟩
    rw [hwrite] at h
    cases result with
    | ok => cases h
    | error _ =>
      cases h
      rw [FileAction.eq_of_writeBytes_error hwrite]
      exact hparents

/-- The directories that a file lies in need not be made where the file can be found. -/
theorem run_makeParents_of_readBytes {bytes : ByteArray} (hread : before.readBytes path = .ok bytes) :
    runIn (makeParents path) before = (.ok (), before) := by
  obtain ⟨place, hlocate, -⟩ := Workspace.readBytes_eq_ok.1 hread
  unfold makeParents
  split
  · rfl
  · rename_i parent hparent
    split
    · rfl
    · rename_i hne
      have hmem : parent ∈ path.ancestors := List.mem_of_mem_head? hparent
      rw [FileAction.run_mapError, FileAction.run_makeDirectories_of_isDirectory
        (Workspace.isDirectory_of_mem_ancestors hlocate hmem hne)]
      rfl

/-- Where a file can be read, writing it is writing its bytes. -/
theorem run_writeFile_of_readBytes {bytes : ByteArray} (hread : before.readBytes path = .ok bytes)
    (text : String) :
    runIn (writeFile path text) before =
      ((runIn (FileAction.writeBytes path text.toUTF8) before).1.mapError (.io path),
        (runIn (FileAction.writeBytes path text.toUTF8) before).2) := by
  unfold writeFile FileAction.writeText
  rw [FileAction.run_bind, run_makeParents_of_readBytes hread]
  dsimp only
  rw [FileAction.run_mapError]

/-- A file can be written where its directories stand and its bytes can be. -/
theorem run_writeFile_of_writeBytes {bytes : ByteArray} (hread : before.readBytes path = .ok bytes)
    (hwrite : runIn (FileAction.writeBytes path text.toUTF8) before = (.ok (), after)) :
    runIn (writeFile path text) before = (.ok (), after) := by
  rw [run_writeFile_of_readBytes hread, hwrite]
  rfl

/-- A file that can be read can be written again, if the disk accepts that. -/
theorem exists_run_writeFile {bytes : ByteArray} (hplain : path.IsPlain)
    (hread : before.readBytes path = .ok bytes) (haccepts : before.Accepts path) (text : String) :
    ∃ after, runIn (writeFile path text) before = (.ok (), after) := by
  obtain ⟨place, -, hwrite⟩ :=
    FileAction.run_writeBytes_of_readBytes hplain hread haccepts text.toUTF8
  exact ⟨_, run_writeFile_of_writeBytes hread hwrite⟩

/-- What was written can be written again, and changes nothing then. -/
theorem run_writeFile_again (h : runIn (writeFile path text) before = (.ok (), after)) :
    runIn (writeFile path text) after = (.ok (), after) := by
  obtain ⟨_, between, -, hwrite⟩ := FileAction.run_bind_eq_ok.1 h
  exact run_writeFile_of_writeBytes (readBytes_of_writeFile h)
    (FileAction.writeBytes_spec (FileAction.run_mapError_eq_ok.1 hwrite)).2

/-- A file that is written with what it holds stays as it is, and so does all else. -/
theorem run_writeFile_self (hplain : path.IsPlain)
    (hread : before.readBytes path = .ok text.toUTF8) (haccepts : before.Accepts path) :
    runIn (writeFile path text) before = (.ok (), before) :=
  run_writeFile_of_writeBytes hread (FileAction.run_writeBytes_self hplain hread haccepts)

/-! ## 4. Stores and the batch -/

namespace Catalog

variable {catalog : Catalog} {locale : String} {messages : Messages} {batch : Batch}

section Moves

variable {related : Workspace → Workspace → Prop} [Changes related]

theorem moves_saveStore (catalog : Catalog) (locale : String) (messages : Messages) :
    Moves related (catalog.saveStore locale messages) :=
  moves_writeFile _ _

theorem moves_saveBatch (catalog : Catalog) (batch : Batch) :
    Moves related (catalog.saveBatch batch) :=
  moves_writeFile _ _

theorem moves_removeBatch (catalog : Catalog) : Moves related catalog.removeBatch :=
  (Changes.removeFile catalog.batch).mapError _

end Moves

theorem within_saveStore (h : catalog.Apart current)
    (hlocale : locale ∈ catalog.locales.locales) (messages : Messages) :
    Within current {catalog.storePlace current locale} {catalog.storePlace current locale}
      (catalog.saveStore locale messages) :=
  within_writeFile (h.plain_store hlocale) _

theorem readBytes_of_saveStore
    (hsave : runIn (catalog.saveStore locale messages) before = (.ok (), after)) :
    after.readBytes (catalog.storePath locale) = .ok messages.write.toUTF8 :=
  readBytes_of_writeFile hsave

/-- A batch that was saved is what its file holds, and no other file is another one. -/
theorem saveBatch_spec (h : catalog.Apart before.current)
    (hsave : runIn (catalog.saveBatch batch) before = (.ok (), after)) :
    Changed {catalog.batchPlace before.current} {catalog.batchPlace before.current} before after ∧
      after.readBytes catalog.batch = .ok batch.write.toUTF8 :=
  ⟨(within_writeFile h.plain_batch _).changed hsave, readBytes_of_writeFile hsave⟩

/-- A batch that was taken away is gone, and no other file is another one. -/
theorem removeBatch_spec (h : catalog.Apart before.current) {removed : Bool}
    (hremove : runIn catalog.removeBatch before = (.ok removed, after)) :
    Changed {catalog.batchPlace before.current} {catalog.batchPlace before.current} before after ∧
      after.entryAt catalog.batch = .error .notFound :=
  ⟨((FileAction.within_removeFile h.plain_batch).mapError _).changed hremove,
    FileAction.entryAt_of_removeFile (FileAction.run_mapError_eq_ok.1 hremove)⟩

/-- A batch that is gone does not load as one. -/
theorem loadBatch_of_notFound (h : after.entryAt catalog.batch = .error .notFound) :
    catalog.loadBatch after = .ok none :=
  readFile_of_notFound h

/-- A store that reads as messages loads as these. -/
theorem loadStore_of_readFile
    (h : readFile Messages.reader (catalog.storePath locale) after = .ok (some messages)) :
    catalog.loadStore locale after = .ok messages := by
  unfold loadStore
  rw [h]
  rfl

/-- A store that was left as it is loads as before, if it was there. -/
theorem loadStore_of_kept (hload : catalog.loadStore locale before = .ok messages)
    (hkept : Kept (catalog.storePath locale) before after) :
    catalog.loadStore locale after = .ok messages ∨
      before.readText (catalog.storePath locale) = .error .notFound := by
  cases htext : before.readText (catalog.storePath locale) with
  | ok text =>
    have hbytes := Workspace.readText_eq_ok.1 htext
    unfold loadStore at hload ⊢
    rw [readFile_congr ((hkept.contents _ hbytes).trans hbytes.symm)]
    exact .inl hload
  | error error =>
    refine .inr (congrArg Except.error ?_)
    unfold loadStore readFile at hload
    rw [htext] at hload
    cases error <;> first | rfl | cases hload

namespace Apart

variable {written reached : Set Location} (h : catalog.Apart before.current)
  (hlocale : locale ∈ catalog.locales.locales) (hchanged : Changed written reached before after)
  (hwritten : written ⊆ catalog.otherPlaces before.current locale)

include h hlocale hchanged hwritten

/-- The contents of a store stay what they are while other files are written. -/
theorem readBytes_store {bytes : ByteArray}
    (hread : before.readBytes (catalog.storePath locale) = .ok bytes) :
    after.readBytes (catalog.storePath locale) = .ok bytes :=
  hchanged.readBytes_eq (h.plain_store hlocale)
    (fun _ hplace => h.not_prefix_store hlocale (hwritten hplace)) hread

/-- A store is kept while other files are written. -/
theorem kept_store (hreached : reached ⊆ catalog.places before.current) :
    Kept (catalog.storePath locale) before after :=
  hchanged.kept (h.plain_store hlocale)
    (fun _ hplace => h.not_prefix_store hlocale (hwritten hplace))
    fun _ hplace hon => h.eq_of_store_prefix hlocale (hreached hplace) hon

omit hchanged hwritten in
/-- A store is kept while the batch is written. -/
theorem kept_of_changed_batch
    (hchanged : Changed {catalog.batchPlace before.current} {catalog.batchPlace before.current}
      before after) : Kept (catalog.storePath locale) before after :=
  h.kept_store hlocale hchanged (Set.singleton_subset_iff.2 batchPlace_mem_otherPlaces)
    batchPlace_subset_places

omit hchanged hwritten in
/-- A store is kept when one could not be written. -/
theorem kept_of_saveStore_error (hother : other ∈ catalog.locales.locales) {error : StoreError}
    (hsave : runIn (catalog.saveStore other messages) before = (.error error, after)) :
    Kept (catalog.storePath locale) before after :=
  h.kept_store hlocale (changed_of_writeFile_error (h.plain_store hother) hsave)
    (Set.empty_subset _) (Set.singleton_subset_iff.2 (storePlace_mem_places hother))

end Apart

end Catalog

/-! ## 5. Examples -/

/-- A catalog of two locales. -/
def Catalog.sample : Catalog :=
  ⟨LocaleSet.ofList "en" ["fr"], ⟨"locales"⟩, ⟨"pending.json"⟩⟩

/-- Its files: one text is to be translated, and the batch holds a translation. -/
def Workspace.sample : Workspace where
  tree := ⟨.ofList [
    (["p"], Entry.directory),
    (["p", "locales"], Entry.directory),
    (["p", "locales", "en.json"], Entry.file (Messages.ofEntries
      [("a", "a"), ("b", "b")]).write.toUTF8),
    (["p", "locales", "fr.json"], Entry.file (Messages.ofEntries
      [("a", "A"), ("b", "")]).write.toUTF8),
    (["p", "pending.json"], Entry.file (Batch.ofEntries
      [("fr", Messages.ofEntries [("b", "B")])]).write.toUTF8)], fun _ => none⟩
  current := ["p"]

theorem Catalog.apart_sample : Catalog.sample.Apart Workspace.sample.current := by
  decide +kernel

/-- A catalog of three locales. -/
def Catalog.trio : Catalog :=
  ⟨LocaleSet.ofList "en" ["de", "fr"], ⟨"locales"⟩, ⟨"pending.json"⟩⟩

/-- Its files, with a translation for two locales in the batch. The store of one has some bytes, and
    the disk may refuse to change it. -/
def Workspace.trio (bytes : ByteArray) (refusal : Option DiskRefusal) : Workspace where
  tree := {
    entries := .ofList [
      (["p"], Entry.directory),
      (["p", "locales"], Entry.directory),
      (["p", "locales", "de.json"], Entry.file bytes),
      (["p", "locales", "en.json"], Entry.file (Messages.ofEntries [("a", "a")]).write.toUTF8),
      (["p", "locales", "fr.json"], Entry.file (Messages.ofEntries [("a", "")]).write.toUTF8),
      (["p", "pending.json"], Entry.file (Batch.ofEntries
        [("de", Messages.ofEntries [("a", "A")]),
          ("fr", Messages.ofEntries [("a", "B")])]).write.toUTF8)]
    refusals := fun place => if place = ["p", "locales", "de.json"] then refusal else none }
  current := ["p"]

/-- One of its stores can be read and not be written. -/
def Workspace.refusing : Workspace :=
  .trio (Messages.ofEntries [("a", "")]).write.toUTF8 (some .permissionDenied)

theorem Catalog.loadStore_refusing :
    Catalog.trio.loadStore "de" .refusing = .ok (.ofEntries [("a", "")]) :=
  loadStore_of_readFile (readFile_messages (by decide +kernel))

end LocaleCatalog
