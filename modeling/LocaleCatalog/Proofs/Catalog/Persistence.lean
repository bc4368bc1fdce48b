import LocaleCatalog.Proofs.Catalog.Open

/-!
# What is saved is what is loaded

Stores and batches have one written form each. `Catalog.StoreSaved` and `Catalog.BatchSaved` say what
it is to be in this form: the text is the one of the value and no other, it lists the keys of each
object in order, it loads as the value, and to save what it loads as changes nothing.
`Catalog.persistent` proves it of each file that was saved, and says that a file which loads can be
saved, whatever its text was like, if the disk does not refuse that (`SavedOrRefused`).

Nothing is asked of the files here: they may lie in each other's way, and their paths may go up.
-/

namespace LocaleCatalog

open FileAction (runIn)

/-! ## 1. Files that can be read -/

/-- What becomes of a file that is saved: where the disk accepts it, it is in the state that was
    wanted, and where the disk refuses it, the error says so and nothing is changed. -/
structure SavedOrRefused (path : Path) (save : FileAction StoreError Unit) (before : Workspace)
    (wanted : Workspace → Prop) : Prop where
  accepted : before.Accepts path → ∃ after, runIn save before = (.ok (), after) ∧ wanted after
  refused : ∀ reason, before.tree.refusals (path.landing before.current) = some reason →
    runIn save before = (.error (.io path (.refused reason)), before)

/-- A file that can be read is written or refused, also where its path goes up. -/
theorem Disk.savedOrRefused {disk : Disk} {path : Path} {bytes : ByteArray} {text : String}
    {wanted : Workspace → Prop} (hread : disk.readBytes path = .ok bytes)
    (h : ∀ after, runIn (writeFile path text) disk = (.ok (), after) → wanted after) :
    SavedOrRefused path (writeFile path text) disk wanted := by
  obtain ⟨place, htarget, hfile⟩ := disk.target_of_readBytes hread
  obtain rfl : place = path.landing disk.current := FileAction.target_eq_landing htarget
  have hwrite := FileAction.run_writeBytes_of_target htarget hfile text.toUTF8
  constructor
  case accepted =>
    intro haccepts
    rw [show disk.tree.refusals _ = none from haccepts] at hwrite
    have hrun := run_writeFile_of_writeBytes hread hwrite
    exact ⟨_, hrun, h _ hrun⟩
  case refused =>
    intro reason hreason
    rw [hreason] at hwrite
    rw [run_writeFile_of_readBytes hread, hwrite]
    rfl

/-! ## 2. The written forms -/

/-- The keys of the members of an object increase, in the order of code points. -/
def Ordered {β : Type} (members : List (String × β)) : Prop :=
  (members.map (·.1)).Pairwise (· < ·)

/-- The object that messages are written as has its keys in order. -/
theorem Messages.ordered_write (messages : Messages) :
    ∃ members, Json.document (Json.object Json.text) messages.write = .ok members ∧
      Ordered members :=
  ⟨messages.toList, messages.document_members, ordered_toList messages⟩

/-- The objects that a batch is written as have their keys in order, the inner ones too. -/
theorem Batch.ordered_write (batch : Batch) :
    ∃ members, Json.document (Json.object (Json.object Json.text)) batch.write = .ok members ∧
      Ordered members ∧ ∀ member ∈ members, Ordered member.2 := by
  refine ⟨batch.members, batch.document_members, ?_, fun member hmember => ?_⟩
  · have hkeys : batch.members.map (·.1) = batch.toList.map (·.1) := List.map_map
    unfold Ordered
    rw [hkeys]
    exact ordered_toList batch
  · obtain ⟨entry, -, rfl⟩ := List.mem_map.1 hmember
    exact ordered_toList entry.2

namespace Catalog

/-! ## 3. Files that were saved -/

/-- The store of a locale is in the written form of its messages. -/
structure StoreSaved (catalog : Catalog) (locale : String) (messages : Messages)
    (saved : Workspace) : Prop where
  /-- The bytes are those of a text that depends on the messages alone. -/
  bytes : saved.readBytes (catalog.storePath locale) = .ok messages.write.toUTF8
  ordered : ∃ members, Json.document (Json.object Json.text) messages.write = .ok members ∧
    Ordered members
  loads : catalog.loadStore locale saved = .ok messages
  again : ∀ loaded : Messages, catalog.loadStore locale saved = .ok loaded →
    runIn (catalog.saveStore locale loaded) saved = (.ok (), saved)

/-- The batch file is in the written form of a batch. -/
structure BatchSaved (catalog : Catalog) (batch : Batch) (saved : Workspace) : Prop where
  /-- The bytes are those of a text that depends on the batch alone. -/
  bytes : saved.readBytes catalog.batch = .ok batch.write.toUTF8
  ordered : ∃ members,
    Json.document (Json.object (Json.object Json.text)) batch.write = .ok members ∧
      Ordered members ∧ ∀ member ∈ members, Ordered member.2
  /-- There is a batch, even if it has no entries. -/
  loads : catalog.loadBatch saved = .ok (some batch)
  again : ∀ loaded : Batch, catalog.loadBatch saved = .ok (some loaded) →
    runIn (catalog.saveBatch loaded) saved = (.ok (), saved)

variable {catalog : Catalog} {before after : Workspace}

theorem storeSaved_of_saveStore {locale : String} {messages : Messages}
    (h : runIn (catalog.saveStore locale messages) before = (.ok (), after)) :
    catalog.StoreSaved locale messages after := by
  have hbytes := readBytes_of_saveStore h
  have hload := loadStore_of_readFile (readFile_messages hbytes)
  refine ⟨hbytes, messages.ordered_write, hload, fun loaded hloaded => ?_⟩
  rw [hload] at hloaded
  cases hloaded
  exact run_writeFile_again h

theorem batchSaved_of_saveBatch {batch : Batch}
    (h : runIn (catalog.saveBatch batch) before = (.ok (), after)) :
    catalog.BatchSaved batch after := by
  have hbytes := readBytes_of_writeFile h
  have hload : catalog.loadBatch after = .ok (some batch) := readFile_batch hbytes
  refine ⟨hbytes, batch.ordered_write, hload, fun loaded hloaded => ?_⟩
  rw [hload] at hloaded
  cases hloaded
  exact run_writeFile_again h

/-! ## 4. Both directions -/

/-- What is saved is what is loaded, and what is loaded can be saved. -/
structure Persistent (catalog : Catalog) : Prop where
  saveStore : ∀ (locale : String) (messages : Messages) (before after : Workspace),
    runIn (catalog.saveStore locale messages) before = (.ok (), after) →
      catalog.StoreSaved locale messages after
  saveBatch : ∀ (batch : Batch) (before after : Workspace),
    runIn (catalog.saveBatch batch) before = (.ok (), after) → catalog.BatchSaved batch after
  /-- A store that loads is saved in the form of its messages, whatever its text was. -/
  resaveStore : ∀ (locale text : String) (messages : Messages) (before : Disk),
    before.readText (catalog.storePath locale) = .ok text →
      catalog.loadStore locale before = .ok messages →
      SavedOrRefused (catalog.storePath locale) (catalog.saveStore locale messages) before
        (catalog.StoreSaved locale messages)
  /-- A batch that loads is saved in the form of its entries, whatever its text was. -/
  resaveBatch : ∀ (text : String) (batch : Batch) (before : Disk),
    before.readText catalog.batch = .ok text → catalog.loadBatch before = .ok (some batch) →
      SavedOrRefused catalog.batch (catalog.saveBatch batch) before (catalog.BatchSaved batch)

theorem persistent (catalog : Catalog) : catalog.Persistent := by
  constructor
  case saveStore =>
    intro locale messages before after hsave
    exact storeSaved_of_saveStore hsave
  case saveBatch =>
    intro batch before after hsave
    exact batchSaved_of_saveBatch hsave
  case resaveStore =>
    intro locale text messages before hread _
    exact Disk.savedOrRefused (Workspace.readText_eq_ok.1 hread)
      fun after hsave => storeSaved_of_saveStore hsave
  case resaveBatch =>
    intro text batch before hread _
    exact Disk.savedOrRefused (Workspace.readText_eq_ok.1 hread)
      fun after hsave => batchSaved_of_saveBatch hsave

/-- Escapes, a key that comes twice and the order of the text do not matter for what is saved. -/
example : (Json.document Messages.reader
    " \x7b \"b\" : \"1\", \"\\u0061\":\"\\ud83d\\ude00\", \"b\":\"2\" \x7d").toOption.map Messages.write =
      some "\x7b\n  \"a\": \"😀\",\n  \"b\": \"2\"\n\x7d\n" := by
  decide +kernel

end Catalog

end LocaleCatalog
