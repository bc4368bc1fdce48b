import LocaleCatalog.Proofs.Command.Gate
import LocaleCatalog.Proofs.Sync.Survival

/-!
# The keys of the sources, and of what is written for them

The keys of a project are collected from its source files, one file after the other, and a
synchronization writes files for them.

* `Source.isKey_of_mem_keysOf`: what stands in a call and is no key is never listed as one;
* `Sync.Uses`: a file uses a key. `Sync.keysOfFiles_eq_ok_iff`: the keys of some files are those that
  one of them uses, so their order does not matter;
* `Project.Collects`: what `Project.sourceKeys` answers;
* `Catalog.Keyed`: the stores have just these keys, and the batch no others;
* `Command.keyed_of_synchronize`: both together, for the command. What the files held before does
  not matter, since every one of them is built from the keys.
-/

namespace LocaleCatalog

open FileAction (runIn)

/-! ## 1. Keys of files -/

/-- Every key of a text is the literal of a call that may be one. -/
theorem Source.isKey_of_mem_keysOf {name text key : String} (h : key ∈ keysOf name text) :
    IsKey key.toList := by
  unfold keysOf at h
  rw [List.mem_eraseDups, List.mem_map] at h
  obtain ⟨body, hbody, rfl⟩ := h
  obtain ⟨call, -, hkey⟩ := List.mem_filterMap.1 hbody
  unfold Call.key? at hkey
  rw [Option.filter_eq_some_iff] at hkey
  simpa using hkey.2

namespace Sync

variable {workspace : Workspace} {callName key : String} {paths others : List Path}
  {keys : KeySet}

/-- The file at the path can be read, and the key is one of its keys. -/
def Uses (workspace : Workspace) (callName : String) (path : Path) (key : String) : Prop :=
  ∃ bytes, workspace.readBytes path = .ok bytes ∧ key ∈ keysOfBytes callName bytes

theorem Uses.isKey {path : Path} (h : Uses workspace callName path key) :
    Source.IsKey key.toList := by
  obtain ⟨bytes, -, hkey⟩ := h
  exact Source.isKey_of_mem_keysOf hkey

/-- One more file adds the keys that it uses. -/
theorem addKeys_eq_ok {start : KeySet} {path : Path}
    (h : addKeys workspace callName start path = .ok keys) :
    (∃ bytes, workspace.readBytes path = .ok bytes) ∧
      ∀ key, key ∈ keys ↔ key ∈ start ∨ Uses workspace callName path key := by
  unfold addKeys at h
  cases hread : workspace.readBytes path with
  | error error =>
    rw [hread] at h
    cases h
  | ok bytes =>
    rw [hread] at h
    cases h
    simp [Uses, hread, Std.ExtTreeSet.mem_insertMany_list]

/-- Files that are read one after the other were all read, and each added its keys to those that were
    there. -/
theorem foldlM_addKeys_eq_ok {start : KeySet}
    (h : paths.foldlM (addKeys workspace callName) start = .ok keys) :
    (∀ path ∈ paths, ∃ bytes, workspace.readBytes path = .ok bytes) ∧
      ∀ key, key ∈ keys ↔ key ∈ start ∨ ∃ path ∈ paths, Uses workspace callName path key := by
  induction paths generalizing start with
  | nil =>
    cases h
    simp
  | cons path paths ih =>
    rw [List.foldlM_cons] at h
    obtain ⟨next, hfirst, hmore⟩ := bind_eq_ok.1 h
    obtain ⟨hread, hnext⟩ := addKeys_eq_ok hfirst
    obtain ⟨hreadable, hkeys⟩ := ih hmore
    refine ⟨List.forall_mem_cons.2 ⟨hread, hreadable⟩, fun key => ?_⟩
    rw [hkeys, hnext, or_assoc]
    simp

/-- The keys of some files are those that one of them uses. -/
theorem keysOfFiles_eq_ok_iff : keysOfFiles workspace callName paths = .ok keys ↔
    (∀ path ∈ paths, ∃ bytes, workspace.readBytes path = .ok bytes) ∧
      ∀ key, key ∈ keys ↔ ∃ path ∈ paths, Uses workspace callName path key := by
  rw [keysOfFiles_eq]
  constructor
  · intro h
    simpa using foldlM_addKeys_eq_ok h
  · intro h
    obtain ⟨hreadable, hkeys⟩ := h
    obtain ⟨found, hfound⟩ := exists_foldlM_addKeys callName hreadable ∅
    have hsame : found = keys := Std.ExtTreeSet.ext_mem fun key => by
      rw [hkeys, (foldlM_addKeys_eq_ok hfound).2]
      simp
    rw [hfound, hsame]

/-- Neither the order of the files nor a repetition matters. -/
theorem keysOfFiles_congr (hmembers : ∀ path, path ∈ paths ↔ path ∈ others)
    (h : keysOfFiles workspace callName others = .ok keys) :
    keysOfFiles workspace callName paths = .ok keys := by
  rw [keysOfFiles_eq_ok_iff] at h ⊢
  simpa only [hmembers] using h

end Sync

/-! ## 2. Keys of a project -/

/-- The keys of a project are known just if there are sources and all can be read. They are those
    that a source uses, in whatever order the sources are read, and each can be a key. -/
structure Project.Collects (project : Project) (workspace : Workspace) : Prop where
  known : (∃ sources, project.sourceKeys workspace = .ok sources) ↔
    project.sources workspace ≠ [] ∧
      ∀ path ∈ project.sources workspace, ∃ bytes, workspace.readBytes path = .ok bytes
  used : ∀ sources, project.sourceKeys workspace = .ok sources → ∀ key, key ∈ sources.keys ↔
    ∃ path ∈ project.sources workspace, Sync.Uses workspace project.config.callName path key
  unordered : ∀ sources, project.sourceKeys workspace = .ok sources → ∀ paths : List Path,
    (∀ path, path ∈ paths ↔ path ∈ project.sources workspace) →
      Sync.keysOfFiles workspace project.config.callName paths = .ok sources.keys
  safe : ∀ sources, project.sourceKeys workspace = .ok sources → ∀ key ∈ sources.keys,
    Source.IsKey key.toList

namespace Project

variable {project : Project} {workspace : Workspace} {sources : SourceKeys}

/-- Known keys are those of the sources, of which there are some. -/
theorem sourceKeys_eq_ok (h : project.sourceKeys workspace = .ok sources) :
    project.sources workspace ≠ [] ∧
      Sync.keysOfFiles workspace project.config.callName (project.sources workspace) =
        .ok sources.keys := by
  by_cases hnone : project.sources workspace = []
  · rw [Command.sourceKeys_of_nil hnone] at h
    cases h
  · obtain ⟨files, hfiles⟩ := Command.sourceKeys_of_ne_nil hnone
    rw [hfiles] at h
    obtain ⟨keys, hkeys, rfl⟩ := map_eq_ok.1 h
    exact ⟨hnone, hkeys⟩

theorem exists_sourceKeys_iff : (∃ sources, project.sourceKeys workspace = .ok sources) ↔
    project.sources workspace ≠ [] ∧
      ∀ path ∈ project.sources workspace, ∃ bytes, workspace.readBytes path = .ok bytes := by
  constructor
  · intro h
    obtain ⟨sources, hsources⟩ := h
    obtain ⟨hsome, hkeys⟩ := sourceKeys_eq_ok hsources
    exact ⟨hsome, (Sync.keysOfFiles_eq_ok_iff.1 hkeys).1⟩
  · exact fun h => Command.exists_sourceKeys h.1 h.2

theorem collects (project : Project) (workspace : Workspace) : project.Collects workspace := by
  have hused (sources : SourceKeys) (h : project.sourceKeys workspace = .ok sources) (key : String) :
      key ∈ sources.keys ↔ ∃ path ∈ project.sources workspace,
        Sync.Uses workspace project.config.callName path key :=
    (Sync.keysOfFiles_eq_ok_iff.1 (sourceKeys_eq_ok h).2).2 key
  refine ⟨exists_sourceKeys_iff, hused, fun sources h paths hpaths => ?_,
    fun sources h key hkey => ?_⟩
  · exact Sync.keysOfFiles_congr hpaths (sourceKeys_eq_ok h).2
  · obtain ⟨path, -, huses⟩ := (hused sources h key).1 hkey
    exact huses.isKey

end Project

/-! ## 3. Keys of what is written -/

namespace Catalog

/-- The paths of the batch and of the stores lead to as many places. -/
def Distinct (catalog : Catalog) (current : Location) : Prop :=
  ((catalog.batch :: catalog.locales.locales.map catalog.storePath).map
    (Path.landing current)).Nodup

instance (catalog : Catalog) (current : Location) : Decidable (catalog.Distinct current) :=
  inferInstanceAs (Decidable (List.Nodup _))

/-- Each store has just the keys, and the batch, if there is one, no others. -/
structure Keyed (catalog : Catalog) (workspace : Workspace) (keys : KeySet) : Prop where
  stores : ∀ locale ∈ catalog.locales.locales, catalog.HasKeys workspace locale keys
  batch : ∃ found, catalog.loadBatch workspace = .ok found ∧
    ∀ batch, found = some batch → batch.AsksWithin catalog.locales keys

theorem Distinct.landing_ne {catalog : Catalog} {current : Location} (h : catalog.Distinct current)
    {locale : String} (hlocale : locale ∈ catalog.locales.locales) :
    catalog.batch.landing current ≠ (catalog.storePath locale).landing current := by
  intro heq
  refine (List.nodup_cons.1 h).1 ?_
  rw [heq]
  exact List.mem_map_of_mem (List.mem_map_of_mem hlocale)

end Catalog

variable {before after : Workspace}

/-- Wherever its path leads, the batch that a synchronization leaves asks for texts of its keys. -/
theorem Sync.asksWithin_of_synchronize {catalog : Catalog} {keys : KeySet} {report : Report}
    (h : runIn (synchronize catalog keys) before = (.ok report, after)) :
    ∃ found, catalog.loadBatch after = .ok found ∧
      ∀ batch, found = some batch → batch.AsksWithin catalog.locales keys := by
  obtain ⟨contents, hloads⟩ := exists_loads_of_synchronize h
  obtain ⟨between, outcome, -, hbatch, -⟩ := (synchronize_eq_ok hloads).1 h
  refine ⟨_, (Plan.holdsBatch_of_writeBatch hbatch).loadBatch, fun batch hsome => ?_⟩
  unfold Plan.batch? at hsome
  split at hsome
  · cases hsome
  · cases hsome
    exact Contents.asksWithin_batch_plan

namespace Command

/-- A command that succeeds has opened a project, collected its keys and synchronized with them. -/
theorem synchronizeProject_eq_ok {options : Options} {outcome : Outcome}
    (h : runIn (synchronizeProject options) before = (.ok outcome, after)) :
    ∃ project sources report, options.openProject before = .ok project ∧
      project.sourceKeys before = .ok sources ∧
      runIn (Sync.synchronize project.catalog sources.keys) before = (.ok report, after) := by
  unfold synchronizeProject at h
  obtain ⟨project, hproject, hcollect⟩ := FileAction.run_inspect_bind_eq_ok.1 h
  obtain ⟨sources, hsources, hwrite⟩ := FileAction.run_inspect_bind_eq_ok.1 hcollect
  obtain ⟨report, between, hreport, hdone⟩ := FileAction.run_bind_eq_ok.1 hwrite
  cases hdone
  exact ⟨project, sources, report, mapError_eq_ok.1 hproject, mapError_eq_ok.1 hsources,
    FileAction.run_mapError_eq_ok.1 hreport⟩

/-- Whatever project there is, its keys are those that its sources use. After the command, if it
    succeeds, the stores and the batch of its project have no keys but these. -/
theorem keyed_of_synchronize (options : Options) (before : Workspace) :
    (∀ project : Project, project.Collects before) ∧
      ∀ outcome after, runIn (synchronizeProject options) before = (.ok outcome, after) →
        ∃ project sources, options.openProject before = .ok project ∧
          project.sourceKeys before = .ok sources ∧
          (project.catalog.Distinct before.current → project.catalog.Keyed after sources.keys) := by
  refine ⟨fun project => project.collects before, fun outcome after h => ?_⟩
  obtain ⟨project, sources, report, hopen, hsources, hrun⟩ := synchronizeProject_eq_ok h
  obtain ⟨loaded, -, -, hproject⟩ := openProject_eq_ok.1 hopen
  have hlocales := (Project.locales_of_ofConfig hproject).2
  refine ⟨project, sources, hopen, hsources, fun hdistinct => ?_⟩
  exact {
    stores := fun locale hlocale =>
      Sync.hasKeys_of_landing_ne hproject hrun (hlocales ▸ hlocale) (hdistinct.landing_ne hlocale)
    batch := Sync.asksWithin_of_synchronize hrun }

/-- One source that uses one key. Before, the store and the batch hold others, which could not be
    keys. -/
def strayKeys : Workspace where
  tree := ⟨.ofList [
    (["p"], Entry.directory),
    (["p", ".glotsyncrc.json"],
      Entry.file "\x7b\"locales\": [\"en\", \"fr\"]\x7d".toUTF8),
    (["p", "a.ts"], Entry.file "tr('a') tr('$\x7bb\x7d')".toUTF8),
    (["p", "locales"], Entry.directory),
    (["p", "locales", "fr.json"], Entry.file (Messages.ofEntries
      [("", "E"), ("$\x7bb\x7d", "B")]).write.toUTF8),
    (["p", "pending-translations.json"], Entry.file (Batch.ofEntries
      [("fr", Messages.ofEntries [("c\n", "C")])]).write.toUTF8)], fun _ => none⟩
  current := ["p"]

theorem keyed_sample : ∃ outcome after project sources,
    runIn (synchronizeProject {}) strayKeys = (.ok outcome, after) ∧
      Options.openProject {} strayKeys = .ok project ∧
      project.sourceKeys strayKeys = .ok sources ∧
      sources.keys.toList = ["a"] ∧ project.catalog.Keyed after sources.keys := by
  obtain ⟨outcome, hrun⟩ := FileAction.exists_of_isOk (synchronizeProject {}) strayKeys
    (by decide +kernel)
  obtain ⟨project, sources, hopen, hsources, hkeyed⟩ :=
    (keyed_of_synchronize {} strayKeys).2 _ _ hrun
  have hsample : (Options.openProject {} strayKeys).toOption.any fun project =>
      decide (project.catalog.Distinct strayKeys.current) &&
        (project.sourceKeys strayKeys).toOption.any fun sources => sources.keys.toList = ["a"] := by
    decide +kernel
  simp only [hopen, hsources, Except.toOption, Option.any_some, Bool.and_eq_true,
    decide_eq_true_eq] at hsample
  exact ⟨outcome, _, project, sources, hrun, hopen, hsources, hsample.2, hkeyed hsample.1⟩

end Command

end LocaleCatalog
