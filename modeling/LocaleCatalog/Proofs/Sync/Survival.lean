import Mathlib.Data.List.Nodup
import LocaleCatalog.Proofs.Command.Gate
import LocaleCatalog.Proofs.FileTree.Landing
import LocaleCatalog.Proofs.Sync.Write

/-!
# Stores that survive the batch

The settings name the directory of the stores and the batch file independently, and nothing compares
the two: a batch path may name a store. A synchronization writes the stores first, then the batch,
so this store is lost, and no error tells it.

* `Batch.document_messages_of_ne_empty`: the written form of a batch does not read as messages;
* `Config.landings_nodup`: valid locales have stores at different places, whatever the directory;
* `Sync.written_of_writeStores`, `Sync.preserved_of_writeBatch`: the stores survive each other, and
  whatever is not where the batch path leads survives the batch;
* `Sync.hasKeys_iff_of_synchronize`: with settings that were accepted, a synchronization that
  succeeds leaves a store with exactly the keys just where the batch path does not lead;
* `Sync.hasKeys_of_landing_ne`: whether it will can be told from the paths, before anything is run;
* `Sync.lost_store`: accepted settings and a synchronization that takes a store away.

No path is asked to be plain, and no file to be apart from another.
-/

namespace LocaleCatalog

open FileAction (runIn)
open Workspace (Preserved)

/-! ## 1. A batch is no store -/

namespace Json

/-- The reader finds a fault in the input. -/
def Refuses {α : Type} (reader : Reader α) (input : List Char) : Prop :=
  ∃ fault, reader input = .error fault

variable {α β : Type} {value : Reader α} {blanks input : List Char}

theorem refuses_startingWith {opening : Char} {wanted : Shape}
    (hblanks : ∀ b ∈ blanks, isSpace b = true) (hopening : isSpace opening = false)
    (h : Refuses value input) :
    Refuses (startingWith opening wanted value) (blanks ++ opening :: input) := by
  obtain ⟨_, htoken⟩ := token?_behind_blanks hblanks hopening input
  obtain ⟨fault, h⟩ := h
  refine ⟨fault, ?_⟩
  unfold startingWith
  rw [htoken]
  dsimp only
  rw [if_pos rfl, h]
  rfl

/-- An object is no text. -/
theorem refuses_text_of_brace (rest : List Char) : Refuses text (' ' :: '{' :: rest) := by
  obtain ⟨shorter, htoken⟩ := token?_behind_blanks isSpace_space (by decide) (c := '{') rest
  have hbrace : token? (' ' :: '{' :: rest) = some ⟨'{', rest, shorter⟩ := htoken
  unfold Refuses text startingWith
  rw [hbrace]
  exact ⟨_, if_neg (show ¬ '{' = '"' by decide)⟩

/-- Members are refused if the value of the first one is. -/
theorem refuses_members {write : β → List Char} {entry : String × β} {rest : List Char}
    (h : Refuses value (' ' :: (write entry.2 ++ rest))) :
    Refuses (members value) (writtenMember write entry ++ rest) := by
  obtain ⟨fault, h⟩ := h
  have hsplit : writtenMember write entry ++ rest =
      writeChars entry.1.toList ++ '"' :: (':' :: ' ' :: (write entry.2 ++ rest)) := by
    simp [writtenMember]
  obtain ⟨_, hread⟩ := reads_quotedChars entry.1.toList (':' :: ' ' :: (write entry.2 ++ rest))
  obtain ⟨_, hcolon⟩ := reads_colon (' ' :: (write entry.2 ++ rest))
  refine ⟨fault, ?_⟩
  rw [members, member, hsplit, hread]
  simp only [bind, Except.bind, hcolon, h]

/-- So is an object that was written with members. -/
theorem refuses_object {write : β → List Char} (level : Nat) (entry : String × β)
    (entries : List (String × β)) (rest : List Char)
    (h : ∀ rest, Refuses value (' ' :: (write entry.2 ++ rest))) :
    Refuses (object value)
      (writeObject level ((entry :: entries).map fun entry => (entry.1, write entry.2)) ++ rest) := by
  rw [writeObject_cons]
  refine @refuses_startingWith _ _ [] _ _ _ (List.forall_mem_nil _) (by decide) ?_
  obtain ⟨_, hbody⟩ := @objectBody_eq_members _ _ value (isSpace_newline (level + 1))
    (writtenMember write entry ++
      (writtenMembers (level + 1) write entries ++ (newline level ++ '}' :: rest)))
  obtain ⟨fault, hfault⟩ := refuses_members (h _)
  exact ⟨fault, by rw [hbody, hfault]; rfl⟩

end Json

/-- The written form of a batch with a locale does not read as messages. -/
theorem Batch.document_messages_of_ne_empty {batch : Batch} (h : batch ≠ ∅) :
    ∃ malformation, Json.document Messages.reader batch.write = .error malformation := by
  have hrefuses : Json.Refuses (Json.object Json.text) batch.write.toList := by
    unfold write writeChars
    rw [String.toList_ofList]
    cases hentries : batch.toList with
    | nil =>
      have hempty : batch.isEmpty = true := by
        rw [← Std.ExtTreeMap.isEmpty_toList, hentries]
        rfl
      exact absurd (Std.ExtTreeMap.isEmpty_iff.1 hempty) h
    | cons entry entries =>
      refine @Json.refuses_object _ _ _ (Messages.writeAt 1) 0 entry entries ['\n'] fun rest => ?_
      obtain ⟨more, hmore⟩ : ∃ more, entry.2.writeAt 1 = '{' :: more := by
        unfold Messages.writeAt Json.writeObject Json.writeBetween
        split
        · exact ⟨_, rfl⟩
        · exact ⟨_, rfl⟩
      rw [hmore]
      exact Json.refuses_text_of_brace (more ++ rest)
  obtain ⟨fault, hfault⟩ := hrefuses
  unfold Json.document Messages.reader
  rw [hfault]
  exact ⟨_, rfl⟩

/-! ## 2. Places of stores -/

namespace Config

/-- Valid locales have stores at different places, whatever directory they are in. -/
theorem landings_nodup {catalog : Catalog} {locales : List String} (hnodup : locales.Nodup)
    (h : ∀ locale ∈ locales, isLocale locale = true) (current : Location) :
    (locales.map fun locale => (catalog.storePath locale).landing current).Nodup := by
  obtain ⟨above, habove⟩ := Path.exists_landing_div catalog.stores current
  have hlanding (locale : String) (hlocale : locale ∈ locales) :
      (catalog.storePath locale).landing current = above ++ [locale ++ ".json"] :=
    habove _ (isName_of_isLocale (h locale hlocale))
  refine List.Nodup.map_on (fun locale hlocale other hother heq => ?_) hnodup
  rw [hlanding locale hlocale, hlanding other hother] at heq
  have hname : locale ++ ".json" = other ++ ".json" :=
    List.singleton_inj.1 (List.append_cancel_left heq)
  exact (String.append_left_inj _).1 hname

end Config

/-! ## 3. What is written, and what survives -/

variable {path : Path} {before after : Workspace}

theorem preserved_of_makeParents {result : Except StoreError Unit}
    (h : runIn (makeParents path) before = (result, after)) : Preserved ∅ before after := by
  unfold makeParents at h
  split at h
  · cases h
    exact .refl _ _
  · split at h
    · cases h
      exact .refl _ _
    · rw [FileAction.run_mapError] at h
      cases h
      exact FileAction.preserved_of_makeDirectories rfl

/-- A file that is written takes the place where its path leads, and no other. -/
theorem preserved_of_writeFile {text : String}
    (h : runIn (writeFile path text) before = (.ok (), after)) :
    Preserved {place | after.locate path = .ok place} before after := by
  obtain ⟨_, between, hparents, hwrite⟩ := FileAction.run_bind_eq_ok.1 h
  have hmade := preserved_of_makeParents hparents
  exact (hmade.mono (Set.empty_subset _)).trans
    (FileAction.preserved_of_writeBytes (FileAction.run_mapError_eq_ok.1 hwrite))

namespace Sync

variable {catalog : Catalog} {keys : KeySet} {plan : Plan}

/-- Stores at different places are written one after the other; each survives those behind it, and
    so does all that stands elsewhere. -/
theorem written_of_writeStores {plans : List LocalePlan}
    (hnodup : (plans.map fun plan =>
      (catalog.storePath plan.locale).landing before.current).Nodup)
    (h : runIn (plans.forM fun plan => catalog.saveStore plan.locale plan.store) before =
      (.ok (), after)) :
    Preserved {place | place ∈ plans.map fun plan =>
        (catalog.storePath plan.locale).landing before.current} before after ∧
      ∀ plan ∈ plans,
        after.readBytes (catalog.storePath plan.locale) = .ok plan.store.write.toUTF8 := by
  induction plans generalizing before with
  | nil =>
    cases h
    exact ⟨.refl _ _, List.forall_mem_nil _⟩
  | cons first plans ih =>
    obtain ⟨⟨⟩, between, hsave, hmore⟩ := FileAction.run_bind_eq_ok.1 h
    have hsaved : Preserved _ before between := preserved_of_writeFile hsave
    have hcurrent := hsaved.current
    rw [List.map_cons, List.nodup_cons] at hnodup
    obtain ⟨hrest, hwritten⟩ := ih (by rw [hcurrent]; exact hnodup.2) hmore
    rw [hcurrent] at hrest
    refine ⟨(hsaved.mono ?_).trans (hrest.mono ?_), List.forall_mem_cons.2 ⟨?_, hwritten⟩⟩
    · intro place hplace
      rw [Set.mem_ofPred_eq] at hplace
      rw [Workspace.locate_eq_landing hplace, hcurrent]
      exact List.mem_cons_self
    · intro place hplace
      exact List.mem_cons_of_mem _ hplace
    · refine hrest.readBytes ?_ (Catalog.readBytes_of_saveStore hsave)
      rw [hcurrent]
      exact hnodup.1

/-- Whatever is not where the batch path leads survives the batch. -/
theorem preserved_of_writeBatch {outcome : BatchOutcome}
    (h : runIn (plan.writeBatch catalog) before = (.ok outcome, after)) :
    Preserved {place | after.locate catalog.batch = .ok place} before after := by
  unfold Plan.writeBatch at h
  split at h
  · obtain ⟨removed, between, hremove, hdone⟩ := FileAction.run_bind_eq_ok.1 h
    cases hdone
    exact FileAction.preserved_of_removeFile (FileAction.run_mapError_eq_ok.1 hremove)
  · obtain ⟨⟨⟩, between, hsave, hdone⟩ := FileAction.run_bind_eq_ok.1 h
    cases hdone
    exact preserved_of_writeFile hsave

/-- Where the batch path leads there is no file that reads as messages. -/
theorem readFile_of_writeBatch {outcome : BatchOutcome}
    (h : runIn (plan.writeBatch catalog) before = (.ok outcome, after)) (messages : Messages) :
    readFile Messages.reader catalog.batch after ≠ .ok (some messages) := by
  intro hread
  have hholds := Plan.holdsBatch_of_writeBatch h
  unfold Plan.batch? at hholds
  split at hholds
  · rw [readFile_of_notFound hholds] at hread
    cases hread
  · rename_i hsome
    have hne : plan.batch ≠ ∅ := fun hempty => hsome (Std.ExtTreeMap.isEmpty_iff.2 hempty)
    obtain ⟨malformation, hmalformed⟩ := Batch.document_messages_of_ne_empty hne
    unfold readFile at hread
    rw [Workspace.readText_eq_ok.2 hholds] at hread
    dsimp only at hread
    rw [if_neg plan.batch.not_blank_write, hmalformed] at hread
    cases hread

end Sync

/-! ## 4. Stores with their keys -/

/-- The store of a locale is there, and has exactly the keys. -/
def Catalog.HasKeys (catalog : Catalog) (workspace : Workspace) (locale : String)
    (keys : KeySet) : Prop :=
  ∃ store, readFile Messages.reader (catalog.storePath locale) workspace = .ok (some store) ∧
    ∀ key, key ∈ store ↔ key ∈ keys

/-- Paths that lead to one place read alike. -/
theorem readFile_of_locate {α : Type} {reader : Json.Reader α} {other : Path}
    {workspace : Workspace} (hlocate : workspace.locate path = workspace.locate other)
    {value : α} (h : readFile reader path workspace = .ok (some value)) :
    readFile reader other workspace = .ok (some value) := by
  have htext : workspace.readText other = workspace.readText path := by
    unfold Workspace.readText Workspace.readBytes Workspace.entryAt
    rw [hlocate]
  unfold readFile at h ⊢
  rw [htext]
  cases hread : workspace.readText path with
  | error error =>
    rw [hread] at h
    cases error <;> cases h
  | ok text =>
    rw [hread] at h
    dsimp only at h ⊢
    split at h
    · cases h
    · rename_i hblank
      rw [if_neg hblank]
      cases hdocument : Json.document reader text with
      | ok found =>
        rw [hdocument] at h
        cases h
        rfl
      | error malformation =>
        rw [hdocument] at h
        cases h

namespace Sync

variable {config : Config} {base : Path} {project : Project} {keys : KeySet} {report : Report}

/-- A synchronization with accepted settings writes every store with the keys. Behind that, the batch
    takes the place where its path leads, and leaves no messages there. -/
theorem stores_before_batch (hproject : Project.ofConfig config base = .ok project)
    (h : runIn (synchronize project.catalog keys) before = (.ok report, after)) :
    ∃ between, between.current = before.current ∧
      (∀ locale ∈ config.locales, ∃ store : Messages, (∀ key, key ∈ store ↔ key ∈ keys) ∧
        between.readBytes (project.catalog.storePath locale) = .ok store.write.toUTF8) ∧
      Preserved {place | after.locate project.catalog.batch = .ok place} between after ∧
      ∀ messages, readFile Messages.reader project.catalog.batch after ≠ .ok (some messages) := by
  obtain ⟨hvalid, hlocales⟩ := Project.locales_of_ofConfig hproject
  obtain ⟨contents, hloads⟩ := exists_loads_of_synchronize h
  obtain ⟨between, outcome, hwrite, hbatch, -⟩ := (synchronize_eq_ok hloads).1 h
  have hnodup : ((contents.plan project.catalog.locales keys).locales.map fun plan =>
      (project.catalog.storePath plan.locale).landing before.current).Nodup := by
    have hnames := @map_locale_plan project.catalog keys contents
    rw [hlocales] at hnames
    have hplaces := @Config.landings_nodup project.catalog config.locales
      (Config.locales_of_problem? hvalid).1 (Config.isLocale_of_problem? hvalid) before.current
    rwa [← hnames, List.map_map] at hplaces
  obtain ⟨hpreserved, hwritten⟩ := written_of_writeStores hnodup hwrite
  refine ⟨between, hpreserved.current, fun locale hlocale => ?_, preserved_of_writeBatch hbatch,
    readFile_of_writeBatch hbatch⟩
  rw [← hlocales] at hlocale
  have hplanned : LocalePlan.make project.catalog.locales keys (contents.batch.getD ∅) locale
      (contents.stores locale) ∈ (contents.plan project.catalog.locales keys).locales :=
    List.mem_map_of_mem hlocale
  have hread := hwritten _ hplanned
  rw [LocalePlan.locale_make, LocalePlan.store_make] at hread
  exact ⟨_, fun _ => mem_rebuild, hread⟩

section Ending

variable (hproject : Project.ofConfig config base = .ok project)
  (h : runIn (synchronize project.catalog keys) before = (.ok report, after))
  {locale : String} (hlocale : locale ∈ config.locales)

include hproject h hlocale

/-- The way to a store is open, whether the store is still there or not. -/
theorem locate_store_of_synchronize : after.locate (project.catalog.storePath locale) =
    .ok ((project.catalog.storePath locale).landing before.current) := by
  obtain ⟨between, hcurrent, hstores, hpreserved, -⟩ := stores_before_batch hproject h
  obtain ⟨store, -, hread⟩ := hstores locale hlocale
  obtain ⟨place, hlocate, -⟩ := Workspace.readBytes_eq_ok.1 hread
  have hplace := Workspace.locate_eq_landing hlocate
  rw [hcurrent] at hplace
  exact hplace ▸ hpreserved.locate hlocate

/-- A store where the batch path does not lead has its keys. -/
theorem hasKeys_of_locate_ne
    (hother : after.locate project.catalog.batch ≠
      after.locate (project.catalog.storePath locale)) :
    project.catalog.HasKeys after locale keys := by
  have hlocate := locate_store_of_synchronize hproject h hlocale
  obtain ⟨between, hcurrent, hstores, hpreserved, -⟩ := stores_before_batch hproject h
  obtain ⟨store, hkeys, hread⟩ := hstores locale hlocale
  rw [hlocate, ← hcurrent] at hother
  exact ⟨store, readFile_messages (hpreserved.readBytes hother hread), hkeys⟩

/-- Where the batch path lands elsewhere than the path of a store, this store has its keys. -/
theorem hasKeys_of_landing_ne
    (hother : project.catalog.batch.landing before.current ≠
      (project.catalog.storePath locale).landing before.current) :
    project.catalog.HasKeys after locale keys := by
  refine hasKeys_of_locate_ne hproject h hlocale fun hsame => hother ?_
  have hlocate := locate_store_of_synchronize hproject h hlocale
  obtain ⟨between, hcurrent, -, hpreserved, -⟩ := stores_before_batch hproject h
  rw [hlocate] at hsame
  have hplace := Workspace.locate_eq_landing hsame
  rw [hpreserved.current, hcurrent] at hplace
  exact hplace.symm

omit hlocale in
/-- With accepted settings, a store has its keys after a synchronization that succeeds just if the
    batch path does not lead to it. -/
theorem hasKeys_iff_of_synchronize : config.canonicalLocale ∈ config.locales ∧
    ∀ locale ∈ config.locales, (project.catalog.HasKeys after locale keys ↔
      after.locate project.catalog.batch ≠ after.locate (project.catalog.storePath locale)) := by
  obtain ⟨hvalid, -⟩ := Project.locales_of_ofConfig hproject
  refine ⟨(Config.locales_of_problem? hvalid).2, fun locale hlocale => ?_⟩
  obtain ⟨-, -, -, -, hbatch⟩ := stores_before_batch hproject h
  constructor
  · intro hstore hsame
    obtain ⟨found, hfound, -⟩ := hstore
    exact hbatch found (readFile_of_locate hsame.symm hfound)
  · exact hasKeys_of_locate_ne hproject h hlocale

end Ending

/-! ## 5. Two configurations -/

/-- A project with nothing in it. -/
def emptyProject : Workspace where
  tree := ⟨.ofList [(["p"], Entry.directory)], fun _ => none⟩
  current := ["p"]

/-- Two locales, and the batch in its usual place. -/
def apartConfig : Config :=
  { Config.default with locales := ["en", "fr"] }

/-- A text is to be translated, and the batch has a file of its own: both stores have the key. -/
theorem hasKeys_sample : ∃ project report after,
    Project.ofConfig apartConfig ⟨"/p"⟩ = .ok project ∧
    runIn (synchronize project.catalog (.ofList ["a"])) emptyProject = (.ok report, after) ∧
    project.catalog.HasKeys after "en" (.ofList ["a"]) ∧
    project.catalog.HasKeys after "fr" (.ofList ["a"]) := by
  have hproject : Project.ofConfig apartConfig ⟨"/p"⟩ = .ok (.resolved apartConfig ⟨"/p"⟩) :=
    Project.ofConfig_eq_ok.2 ⟨Option.isNone_iff_eq_none.1 (by decide +kernel), rfl⟩
  obtain ⟨report, hrun⟩ := FileAction.exists_of_isOk
    (synchronize (Project.resolved apartConfig ⟨"/p"⟩).catalog (.ofList ["a"])) emptyProject
    (by decide +kernel)
  have hkeys := (hasKeys_iff_of_synchronize hproject hrun).2
  refine ⟨_, report, _, hproject, hrun, (hkeys "en" ?_).2 ?_, (hkeys "fr" ?_).2 ?_⟩
  all_goals decide +kernel

/-- A batch path that names the canonical store. -/
def collidingConfig : Config :=
  { Config.default with pendingFile := "locales/en.json" }

/-- These settings are accepted. Nothing is to be translated, and the synchronization takes the
    store that it has just written for an old batch. -/
theorem lost_store : ∃ project report after,
    Project.ofConfig collidingConfig ⟨"/p"⟩ = .ok project ∧
    runIn (synchronize project.catalog (.ofList ["a"])) emptyProject = (.ok report, after) ∧
    ¬ project.catalog.HasKeys after "en" (.ofList ["a"]) := by
  have hproject :
      Project.ofConfig collidingConfig ⟨"/p"⟩ = .ok (.resolved collidingConfig ⟨"/p"⟩) :=
    Project.ofConfig_eq_ok.2 ⟨Option.isNone_iff_eq_none.1 (by decide +kernel), rfl⟩
  obtain ⟨report, hrun⟩ := FileAction.exists_of_isOk
    (synchronize (Project.resolved collidingConfig ⟨"/p"⟩).catalog (.ofList ["a"])) emptyProject
    (by decide +kernel)
  refine ⟨_, report, _, hproject, hrun, fun hkeys => ?_⟩
  obtain ⟨store, hstore, -⟩ := hkeys
  obtain ⟨bytes, hbytes⟩ := exists_readBytes_of_readFile hstore
  have hgone : ((runIn (synchronize (Project.resolved collidingConfig ⟨"/p"⟩).catalog
      (.ofList ["a"])) emptyProject).2.readBytes
        ((Project.resolved collidingConfig ⟨"/p"⟩).catalog.storePath "en")).isOk = false := by
    decide +kernel
  rw [hbytes] at hgone
  cases hgone

end Sync

end LocaleCatalog
