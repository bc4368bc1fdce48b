import LocaleCatalog.Command.Run
import LocaleCatalog.Proofs.Config.Locales
import LocaleCatalog.Proofs.Config.Settings
import LocaleCatalog.Proofs.Sync.Plan

/-!
# What a synchronization needs before it writes

The command `synchronize` reads in stages: the settings, the sources, the batch, the stores.
`Command.Ready` says that all of it can be read, and `Command.Obstacle` lists what can be in the way,
each with all that must have gone well before it. `Command.gated` says that

* one of the two is the case, and never both;
* an obstacle breaks the command off with its error, and the workspace is as it was;
* so a command that changed something was ready.

Stages that read many files read them in a fixed order, which `Command.gated` tells too: the sources
by the components of their paths, the stores as the settings list the locales.

The settings are those of the options, above those of the file, above the defaults
(`Command.Opened.value_eq`).
-/

namespace LocaleCatalog

open FileAction (runIn)

/-! ## 1. Sources in their order -/

namespace Source

/-- Files found are kept under the components of their spelling. -/
theorem components_of_getElem?_foldl (found : List Path) {files : FileSet}
    (h : ∀ (key : List Component) (path : Path), files[key]? = some path → path.components = key)
    (key : List Component) (path : Path)
    (hpath : (found.foldl (fun files path => files.insertIfNew path.components path) files)[key]? =
      some path) : path.components = key := by
  induction found generalizing files with
  | nil => exact h key path hpath
  | cons first found ih =>
    refine ih (fun key path hfile => ?_) hpath
    rw [Std.ExtTreeMap.getElem?_insertIfNew] at hfile
    split at hfile
    · rename_i heq
      cases hfile
      exact Std.LawfulEqOrd.eq_of_compare heq.1
    · exact h key path hfile

/-- Files are listed in the order of their components, each of them once. -/
theorem ordered_paths_foldl (found : List Path) :
    ((found.foldl (fun files path => files.insertIfNew path.components path)
      (∅ : FileSet)).paths.map Path.components).Pairwise
        fun first second => compare first second = .lt := by
  let files : FileSet := found.foldl (fun files path => files.insertIfNew path.components path) ∅
  have hkeys : files.paths.map Path.components = files.toList.map (·.1) := by
    unfold FileSet.paths
    rw [List.map_map]
    refine List.map_congr_left fun item hitem => ?_
    refine components_of_getElem?_foldl found (fun key path hnone => ?_) item.1 item.2
      (Std.ExtTreeMap.mem_toList_iff_getElem?_eq_some.1 hitem)
    rw [Std.ExtTreeMap.getElem?_empty] at hnone
    cases hnone
  show (files.paths.map Path.components).Pairwise _
  rw [hkeys, Std.ExtTreeMap.map_fst_toList_eq_keys]
  exact Std.ExtTreeMap.ordered_keys

theorem ordered_paths_scan (workspace : Workspace) (base : Path) (filter : Filter) :
    ((scan workspace base filter).files.paths.map Path.components).Pairwise
      fun first second => compare first second = .lt :=
  ordered_paths_foldl _

end Source

/-- The source files of a project, in the order in which they are read. -/
def Project.sources (project : Project) (workspace : Workspace) : List Path :=
  (Source.scan workspace project.sourceRoot project.config.filter).files.paths

/-! ## 2. Files that are read one after the other -/

namespace Sync

variable {workspace : Workspace} {callName : String} {catalog : Catalog}

/-- The keys with those of one more file. -/
def addKeys (workspace : Workspace) (callName : String) (keys : KeySet) (path : Path) :
    Except SourceError KeySet :=
  match workspace.readBytes path with
  | .ok bytes => .ok (keys.insertMany (keysOfBytes callName bytes))
  | .error error => .error (.unreadable path error)

theorem keysOfFiles_eq (workspace : Workspace) (callName : String) (paths : List Path) :
    keysOfFiles workspace callName paths = paths.foldlM (addKeys workspace callName) ∅ := rfl

/-- Where all files can be read, the keys are known. -/
theorem exists_foldlM_addKeys (callName : String) {paths : List Path}
    (h : ∀ path ∈ paths, ∃ bytes, workspace.readBytes path = .ok bytes) (start : KeySet) :
    ∃ keys, paths.foldlM (addKeys workspace callName) start = .ok keys := by
  induction paths generalizing start with
  | nil => exact ⟨start, rfl⟩
  | cons path paths ih =>
    obtain ⟨bytes, hbytes⟩ := h path List.mem_cons_self
    obtain ⟨keys, hkeys⟩ := ih (fun other hother => h other (List.mem_cons_of_mem _ hother))
      (start.insertMany (keysOfBytes callName bytes))
    refine ⟨keys, ?_⟩
    rw [List.foldlM_cons, addKeys, hbytes]
    exact hkeys

/-- The first file that cannot be read is the one that is named. -/
theorem keysOfFiles_of_first {earlier later : List Path} {path : Path} {error : IoError}
    (hearlier : ∀ other ∈ earlier, ∃ bytes, workspace.readBytes other = .ok bytes)
    (hfailed : workspace.readBytes path = .error error) :
    keysOfFiles workspace callName (earlier ++ path :: later) =
      .error (.unreadable path error) := by
  obtain ⟨keys, hkeys⟩ := exists_foldlM_addKeys callName hearlier ∅
  rw [keysOfFiles_eq, List.foldlM_append, hkeys]
  show List.foldlM (addKeys workspace callName) keys (path :: later) = _
  rw [List.foldlM_cons, addKeys, hfailed]
  rfl

/-- Where some stores can be loaded one by one, they can be loaded together. -/
theorem exists_loadAll {locales : List String}
    (h : ∀ locale ∈ locales, ∃ messages, catalog.loadStore locale workspace = .ok messages) :
    ∃ priors, locales.mapM (fun locale =>
      return (locale, ← catalog.loadStore locale workspace)) =
        (.ok priors : Except StoreError (List (String × Messages))) := by
  have hload : ∀ locale ∈ locales, catalog.loadStore locale workspace =
      .ok ((catalog.loadStore locale workspace).toOption.getD ∅) := by
    intro locale hlocale
    obtain ⟨messages, hmessages⟩ := h locale hlocale
    rw [hmessages]
    rfl
  exact ⟨_, mapM_pair_of_forall hload⟩

/-- The first store that cannot be loaded is the one that is named. -/
theorem loadStores_of_first {earlier later : List String} {locale : String} {error : StoreError}
    (hsplit : catalog.locales.locales = earlier ++ locale :: later)
    (hearlier : ∀ other ∈ earlier, ∃ messages, catalog.loadStore other workspace = .ok messages)
    (hfailed : catalog.loadStore locale workspace = .error error) :
    loadStores catalog workspace = .error error := by
  obtain ⟨priors, hpriors⟩ := exists_loadAll hearlier
  unfold loadStores
  rw [hsplit, List.mapM_append, hpriors, List.mapM_cons, hfailed]
  rfl

end Sync

namespace Command

/-! ## 3. The stages -/

/-- What the options say of a setting. -/
def Options.setting? (options : Options) : Config.Field → Option Config.Value
  | .canonicalLocale => options.canonicalLocale.map .text
  | .sourceRoot => options.sourceRoot.map .text
  | .localesRoot => options.localesRoot.map .text
  | _ => none

/-- Each option replaces its own setting, and no other one. -/
theorem Options.value_override (options : Options) (config : Config) (field : Config.Field) :
    (options.override config).value field =
      (options.setting? field).getD (config.value field) := by
  obtain ⟨_, canonicalLocale, sourceRoot, localesRoot, _⟩ := options
  cases field with
  | canonicalLocale => cases canonicalLocale <;> rfl
  | sourceRoot => cases sourceRoot <;> rfl
  | localesRoot => cases localesRoot <;> rfl
  | _ => rfl

/-- The directory that a command starts from. -/
def Options.start (options : Options) : Path := ⟨options.root.getD "."⟩

/-- The settings were found and read, and are valid once the options are put over them. -/
def Opened (options : Options) (workspace : Workspace) (project : Project) : Prop :=
  ∃ loaded, Config.load workspace options.start = .ok loaded ∧
    (options.override loaded.config).problem? = none ∧
    Project.ofConfig (options.override loaded.config) loaded.base = .ok project

/-- There are sources, and all of them can be read. -/
structure Collected (options : Options) (workspace : Workspace) (project : Project) : Prop where
  opened : Opened options workspace project
  found : project.sources workspace ≠ []
  readable : ∀ path ∈ project.sources workspace, ∃ bytes, workspace.readBytes path = .ok bytes

/-- All that a synchronization reads can be read. -/
structure Ready (options : Options) (workspace : Workspace) (project : Project) : Prop extends
    Collected options workspace project where
  batch : ∃ found, project.catalog.loadBatch workspace = .ok found
  stores : ∀ locale ∈ project.catalog.locales.locales,
    ∃ messages, project.catalog.loadStore locale workspace = .ok messages

/-- The settings that govern a directory cannot be loaded. -/
inductive Unloaded (workspace : Workspace) (start : Path) : Config.Error → Prop where
  | unresolved {error : IoError} (hstart : workspace.absolute start = .error error) :
      Unloaded workspace start (.unresolved start error)
  | unreadable {directory path : Path} {error : IoError}
      (hstart : workspace.absolute start = .ok directory)
      (hfind : Config.find? workspace directory = some path)
      (hread : workspace.readText path = .error error) :
      Unloaded workspace start (.unreadable path error)
  | malformed {directory path : Path} {text : String} {malformation : Json.Malformation}
      (hstart : workspace.absolute start = .ok directory)
      (hfind : Config.find? workspace directory = some path)
      (hread : workspace.readText path = .ok text)
      (htext : Config.ofText text = .error malformation) :
      Unloaded workspace start (.malformed path malformation)

/-- Something is in the way of a synchronization, which is reported with this error. -/
inductive Obstacle (options : Options) (workspace : Workspace) : Error → Prop where
  | unloaded {failure : Config.Error} (hload : Unloaded workspace options.start failure) :
      Obstacle options workspace (.config failure)
  | invalid {loaded : Config.Loaded} {problem : Config.Problem}
      (hload : Config.load workspace options.start = .ok loaded)
      (hproblem : (options.override loaded.config).problem? = some problem) :
      Obstacle options workspace (.config (.invalid problem))
  | noSources {project : Project} (hopened : Opened options workspace project)
      (hnone : project.sources workspace = []) :
      Obstacle options workspace (.sources (.noSourceFiles project.sourceRoot))
  | sourceUnreadable {project : Project} {earlier later : List Path} {path : Path} {error : IoError}
      (hopened : Opened options workspace project)
      (hsplit : project.sources workspace = earlier ++ path :: later)
      (hearlier : ∀ other ∈ earlier, ∃ bytes, workspace.readBytes other = .ok bytes)
      (hfailed : workspace.readBytes path = .error error) :
      Obstacle options workspace (.sources (.unreadable path error))
  | batchFailed {project : Project} {failure : StoreError}
      (hcollected : Collected options workspace project)
      (hbatch : project.catalog.loadBatch workspace = .error failure) :
      Obstacle options workspace (.store failure)
  | storeFailed {project : Project} {batch : Option Batch} {earlier later : List String}
      {locale : String} {failure : StoreError} (hcollected : Collected options workspace project)
      (hbatch : project.catalog.loadBatch workspace = .ok batch)
      (hsplit : project.catalog.locales.locales = earlier ++ locale :: later)
      (hearlier : ∀ other ∈ earlier,
        ∃ messages, project.catalog.loadStore other workspace = .ok messages)
      (hfailed : project.catalog.loadStore locale workspace = .error failure) :
      Obstacle options workspace (.store failure)

/-! ## 4. What the stages give -/

variable {options : Options} {before after : Workspace} {project : Project} {error : Error}

/-- Settings are loaded just if there is no reason not to. -/
theorem load_eq_error_iff {start : Path} {failure : Config.Error} :
    Config.load before start = .error failure ↔ Unloaded before start failure := by
  constructor
  · intro h
    unfold Config.load at h
    cases hstart : before.absolute start with
    | error error =>
      rw [hstart] at h
      cases h
      exact .unresolved hstart
    | ok directory =>
      rw [hstart] at h
      simp only [Except.mapError, bind, Except.bind] at h
      cases hfind : Config.find? before directory with
      | none =>
        rw [hfind] at h
        cases h
      | some path =>
        rw [hfind] at h
        cases hread : before.readText path with
        | error error =>
          simp only [hread] at h
          cases h
          exact .unreadable hstart hfind hread
        | ok text =>
          simp only [hread] at h
          cases htext : Config.ofText text with
          | error malformation =>
            simp only [htext] at h
            cases h
            exact .malformed hstart hfind hread htext
          | ok config =>
            simp only [htext] at h
            cases h
  · intro h
    unfold Config.load
    cases h with
    | unresolved hstart =>
      rw [hstart]
      rfl
    | unreadable hstart hfind hread =>
      rw [hstart]
      simp only [Except.mapError, bind, Except.bind, hfind, hread]
    | malformed hstart hfind hread htext =>
      rw [hstart]
      simp only [Except.mapError, bind, Except.bind, hfind, hread, htext]

theorem openProject_eq_ok : options.openProject before = .ok project ↔
    Opened options before project := by
  unfold Options.openProject
  rw [bind_eq_ok]
  refine exists_congr fun loaded => and_congr_right fun _ => ?_
  rw [iff_and_self]
  exact fun hproject => (Project.ofConfig_eq_ok.1 hproject).1

theorem Opened.eq {other : Project} (h : Opened options before project)
    (hother : Opened options before other) : other = project := by
  have hsame := openProject_eq_ok.2 h
  rw [openProject_eq_ok.2 hother] at hsame
  exact Except.ok.inj hsame

/-- The project has the locales of its settings, in their order. -/
theorem Opened.locales (h : Opened options before project) :
    project.catalog.locales.locales = project.config.locales := by
  obtain ⟨loaded, -, -, hproject⟩ := h
  obtain ⟨-, hlocales⟩ := Project.locales_of_ofConfig hproject
  obtain ⟨-, rfl⟩ := Project.ofConfig_eq_ok.1 hproject
  exact hlocales

/-- A command works with what its options set, and otherwise with what the governing file sets;
    what neither of them sets has its default. -/
theorem Opened.value_eq (h : Opened options before project) {directory path : Path}
    {source : Config} {fields : List Config.Field} {blanks : List Char}
    (hstart : before.absolute options.start = .ok directory)
    (hfind : Config.find? before directory = some path)
    (hread : before.readText path = .ok (source.writeSome fields ++ String.ofList blanks))
    (hnodup : fields.Nodup) (hblanks : ∀ b ∈ blanks, Json.isSpace b = true)
    (field : Config.Field) :
    project.config.value field = (options.setting? field).getD
      (if field ∈ fields then source.value field else Config.default.value field) := by
  obtain ⟨config, htext, hvalue⟩ := Config.exists_ofText source hnodup hblanks
  have hload : Config.load before options.start =
      .ok ⟨config, path.parent?.getD directory, true⟩ := by
    unfold Config.load
    rw [hstart]
    simp only [Except.mapError, bind, Except.bind, hfind, hread, htext]
    rfl
  obtain ⟨loaded, hloaded, -, hproject⟩ := h
  rw [hload] at hloaded
  cases hloaded
  obtain ⟨-, rfl⟩ := Project.ofConfig_eq_ok.1 hproject
  exact (options.value_override config field).trans (by rw [hvalue])

theorem isEmpty_files_iff {workspace : Workspace} :
    (Source.scan workspace project.sourceRoot project.config.filter).files.isEmpty = true ↔
      project.sources workspace = [] := by
  unfold Project.sources Source.FileSet.paths
  rw [List.map_eq_nil_iff, Std.ExtTreeMap.toList_eq_nil_iff, Std.ExtTreeMap.isEmpty_iff]

theorem sourceKeys_of_nil {workspace : Workspace} (h : project.sources workspace = []) :
    project.sourceKeys workspace = .error (.noSourceFiles project.sourceRoot) := by
  unfold Project.sourceKeys
  dsimp only
  rw [if_pos (isEmpty_files_iff.2 h)]
  rfl

theorem sourceKeys_of_ne_nil {workspace : Workspace} (h : project.sources workspace ≠ []) :
    ∃ files, project.sourceKeys workspace =
      (Sync.keysOfFiles workspace project.config.callName (project.sources workspace)).map
        fun keys => ⟨files, keys⟩ := by
  refine ⟨(Source.scan workspace project.sourceRoot project.config.filter).files.size, ?_⟩
  unfold Project.sourceKeys
  dsimp only
  rw [if_neg fun hempty => h (isEmpty_files_iff.1 hempty)]
  show (Sync.keysOfFiles workspace project.config.callName (project.sources workspace) >>= _) = _
  cases Sync.keysOfFiles workspace project.config.callName (project.sources workspace) <;> rfl

/-- Where the sources can be read, their keys are known. -/
theorem exists_sourceKeys {workspace : Workspace} (hfound : project.sources workspace ≠ [])
    (hreadable : ∀ path ∈ project.sources workspace,
      ∃ bytes, workspace.readBytes path = .ok bytes) :
    ∃ sources, project.sourceKeys workspace = .ok sources := by
  obtain ⟨files, hfiles⟩ := sourceKeys_of_ne_nil hfound
  obtain ⟨keys, hkeys⟩ := Sync.exists_foldlM_addKeys project.config.callName hreadable ∅
  rw [hfiles, Sync.keysOfFiles_eq, hkeys]
  exact ⟨_, rfl⟩

theorem Collected.exists_sourceKeys (h : Collected options before project) :
    ∃ sources, project.sourceKeys before = .ok sources :=
  Command.exists_sourceKeys h.found h.readable

/-! ## 5. Breaking off -/

theorem run_of_openProject_error {failure : Config.Error}
    (h : options.openProject before = .error failure) :
    runIn (synchronizeProject options) before = (.error (.config failure), before) := by
  unfold synchronizeProject
  rw [FileAction.run_bind, FileAction.run_inspect, h]
  rfl

theorem run_of_sourceKeys_error {failure : Sync.SourceError} (hopened : Opened options before project)
    (h : project.sourceKeys before = .error failure) :
    runIn (synchronizeProject options) before = (.error (.sources failure), before) := by
  unfold synchronizeProject
  rw [FileAction.run_bind, FileAction.run_inspect, openProject_eq_ok.2 hopened]
  show runIn (FileAction.inspect _ >>= _) before = _
  rw [FileAction.run_bind, FileAction.run_inspect, h]
  rfl

/-- No plan, no writing. -/
theorem run_of_plan_error {failure : StoreError} (hcollected : Collected options before project)
    (h : ∀ keys, Sync.Plan.make project.catalog keys before = .error failure) :
    runIn (synchronizeProject options) before = (.error (.store failure), before) := by
  obtain ⟨sources, hsources⟩ := hcollected.exists_sourceKeys
  unfold synchronizeProject
  rw [FileAction.run_bind, FileAction.run_inspect, openProject_eq_ok.2 hcollected.opened]
  show runIn (FileAction.inspect _ >>= _) before = _
  rw [FileAction.run_bind, FileAction.run_inspect, hsources]
  show runIn (FileAction.mapError _ _ >>= _) before = _
  unfold Sync.synchronize
  rw [FileAction.run_bind, FileAction.run_mapError, FileAction.run_bind, FileAction.run_inspect,
    h sources.keys]
  rfl

/-- Each obstacle breaks the command off with its error, before anything is changed. -/
theorem run_of_obstacle (h : Obstacle options before error) :
    runIn (synchronizeProject options) before = (.error error, before) := by
  cases h with
  | unloaded hload =>
    refine run_of_openProject_error ?_
    unfold Options.openProject
    show (Config.load before options.start >>= _) = _
    rw [load_eq_error_iff.2 hload]
    rfl
  | invalid hloaded hproblem =>
    refine run_of_openProject_error ?_
    unfold Options.openProject
    show (Config.load before options.start >>= _) = _
    rw [hloaded]
    show Project.ofConfig _ _ = _
    unfold Project.ofConfig
    rw [hproblem]
  | noSources hopened hnone => exact run_of_sourceKeys_error hopened (sourceKeys_of_nil hnone)
  | @sourceUnreadable project earlier later path failure hopened hsplit hearlier hfailed =>
    refine run_of_sourceKeys_error hopened ?_
    have hfound : project.sources before ≠ [] := by
      rw [hsplit]
      exact List.append_ne_nil_of_right_ne_nil _ (List.cons_ne_nil _ _)
    obtain ⟨files, hfiles⟩ := sourceKeys_of_ne_nil hfound
    rw [hfiles, hsplit, Sync.keysOfFiles_of_first hearlier hfailed]
    rfl
  | batchFailed hcollected hbatch =>
    refine run_of_plan_error hcollected fun keys => ?_
    unfold Sync.Plan.make
    rw [hbatch]
    rfl
  | storeFailed hcollected hbatch hsplit hearlier hfailed =>
    refine run_of_plan_error hcollected fun keys => ?_
    unfold Sync.Plan.make
    rw [hbatch, Sync.loadStores_of_first hsplit hearlier hfailed]
    rfl

/-! ## 6. Ready, or not -/

/-- A project is opened, or there is an obstacle to it. -/
theorem exists_opened (h : ∀ error, ¬ Obstacle options before error) :
    ∃ project, Opened options before project := by
  cases hload : Config.load before options.start with
  | error failure => exact absurd (.unloaded (load_eq_error_iff.1 hload)) (h _)
  | ok loaded =>
    cases hproblem : (options.override loaded.config).problem? with
    | some problem => exact absurd (.invalid hload hproblem) (h _)
    | none =>
      have hproject : ∃ project,
          Project.ofConfig (options.override loaded.config) loaded.base = .ok project := by
        unfold Project.ofConfig
        rw [hproblem]
        exact ⟨_, rfl⟩
      obtain ⟨project, hproject⟩ := hproject
      exact ⟨project, loaded, hload, hproblem, hproject⟩

/-- What fails for some of a list of questions fails for a first one. -/
theorem exists_first_error {ε α β : Type} {question : α → Except ε β} {items : List α}
    (h : ¬ ∀ item ∈ items, ∃ answer, question item = .ok answer) :
    ∃ earlier item later error, items = earlier ++ item :: later ∧ question item = .error error ∧
      ∀ other ∈ earlier, ∃ answer, question other = .ok answer := by
  have hcases (item : α) : (¬ ∃ error, question item = .error error) ↔
      ∃ answer, question item = .ok answer := by
    cases question item <;> simp
  obtain ⟨earlier, item, later, hsplit, ⟨error, herror⟩, hearlier⟩ :=
    exists_first (p := fun item => ∃ error, question item = .error error) fun hall =>
      h fun item hitem => (hcases item).1 (hall item hitem)
  exact ⟨earlier, item, later, error, hsplit, herror,
    fun other hother => (hcases other).1 (hearlier other hother)⟩

/-- Without an obstacle all can be read. -/
theorem exists_ready (h : ∀ error, ¬ Obstacle options before error) :
    ∃ project, Ready options before project := by
  obtain ⟨project, hopened⟩ := exists_opened h
  have hfound : project.sources before ≠ [] := fun hnone => h _ (.noSources hopened hnone)
  have hreadable : ∀ path ∈ project.sources before, ∃ bytes, before.readBytes path = .ok bytes := by
    by_contra hsome
    obtain ⟨earlier, path, later, error, hsplit, hfailed, hearlier⟩ := exists_first_error hsome
    exact h _ (.sourceUnreadable hopened hsplit hearlier hfailed)
  have hcollected : Collected options before project := ⟨hopened, hfound, hreadable⟩
  cases hbatch : project.catalog.loadBatch before with
  | error failure => exact absurd (.batchFailed hcollected hbatch) (h _)
  | ok batch =>
    refine ⟨project, hcollected, ⟨batch, hbatch⟩, ?_⟩
    by_contra hsome
    obtain ⟨earlier, locale, later, failure, hsplit, hfailed, hearlier⟩ := exists_first_error hsome
    exact h _ (.storeFailed hcollected hbatch hsplit hearlier hfailed)

/-- What is ready meets no obstacle. -/
theorem Ready.not_obstacle (h : Ready options before project) : ¬ Obstacle options before error := by
  obtain ⟨loaded, hload, hvalid, -⟩ := h.opened
  intro hobstacle
  cases hobstacle with
  | unloaded hunloaded =>
    rw [load_eq_error_iff.2 hunloaded] at hload
    cases hload
  | invalid hload' hproblem =>
    rw [hload] at hload'
    cases hload'
    rw [hvalid] at hproblem
    cases hproblem
  | noSources hopened hnone =>
    obtain rfl := h.opened.eq hopened
    exact h.found hnone
  | sourceUnreadable hopened hsplit hearlier hfailed =>
    obtain rfl := h.opened.eq hopened
    obtain ⟨bytes, hbytes⟩ := h.readable _ (hsplit ▸ List.mem_append_right _ List.mem_cons_self)
    rw [hfailed] at hbytes
    cases hbytes
  | batchFailed hcollected hbatch =>
    obtain rfl := h.opened.eq hcollected.opened
    obtain ⟨batch, hbatch'⟩ := h.batch
    rw [hbatch] at hbatch'
    cases hbatch'
  | storeFailed hcollected hbatch hsplit hearlier hfailed =>
    obtain rfl := h.opened.eq hcollected.opened
    obtain ⟨messages, hstore⟩ :=
      h.stores _ (hsplit ▸ List.mem_append_right _ List.mem_cons_self)
    rw [hfailed] at hstore
    cases hstore

/-! ## 7. The gate -/

/-- How a synchronization starts: with all that it needs, or not at all. -/
structure Gated (colours : Bool) (options : Options) (before : Workspace) : Prop where
  /-- Either something is in the way, or nothing is. -/
  stages : (∃ error, Obstacle options before error) ↔ ¬ ∃ project, Ready options before project
  /-- What is in the way breaks the command off with its error, and nothing was changed. -/
  stopped : ∀ error, Obstacle options before error →
    runIn (synchronizeProject options) before = (.error error, before) ∧
      (Invocation.synchronize options).run colours before =
        (Result.ofCommand colours (.error error), before) ∧
      (Result.ofCommand colours (.error error)).exitCode = 2
  /-- What changes something was ready. -/
  changed : ((Invocation.synchronize options).run colours before).2 ≠ before →
    ∃ project, Ready options before project
  /-- Sources are read in the order of their components, and stores in the order of the settings. -/
  order : ∀ project, Opened options before project →
    ((project.sources before).map Path.components).Pairwise
        (fun first second => compare first second = .lt) ∧
      project.catalog.locales.locales = project.config.locales

theorem gated (colours : Bool) (options : Options) (before : Workspace) :
    Gated colours options before := by
  have hstopped (error : Error) (h : Obstacle options before error) :
      (Invocation.synchronize options).run colours before =
        (Result.ofCommand colours (.error error), before) := by
    have hrun := run_of_obstacle h
    unfold runIn at hrun
    unfold Invocation.run
    dsimp only
    rw [hrun]
  constructor
  case stages =>
    constructor
    · rintro ⟨error, hobstacle⟩ ⟨project, hready⟩
      exact hready.not_obstacle hobstacle
    · intro hnot
      by_contra hnone
      exact hnot (exists_ready fun error hobstacle => hnone ⟨error, hobstacle⟩)
  case stopped =>
    intro error hobstacle
    exact ⟨run_of_obstacle hobstacle, hstopped error hobstacle, rfl⟩
  case changed =>
    intro hchanged
    refine exists_ready fun error hobstacle => hchanged ?_
    rw [hstopped error hobstacle]
  case order =>
    intro project hopened
    exact ⟨Source.ordered_paths_scan _ _ _, hopened.locales⟩

end Command

end LocaleCatalog
