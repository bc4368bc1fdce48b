import LocaleCatalog.Proofs.Command.Gate
import LocaleCatalog.Proofs.Config.Search
import LocaleCatalog.Proofs.Merge.Plan
import LocaleCatalog.Proofs.Source.Anchored

/-!
# Commands from anywhere in a project

The paths of a project start from the directory of its configuration file, which is absolute. So
once the file is found, nothing depends on where a command was started:

* `Sync.anchored_synchronize`, `Merge.anchored_merge`: they have the same effect in all workspaces
  with the same tree, if the paths of the catalog are absolute;
* `Project.absolute_of_ofConfig`: those of a project are, if its settings were loaded;
* `Command.Steered` says which settings a command gets that starts from a directory, and that it has
  the same effect from every directory that the same file governs. `Command.steered` proves it.
-/

namespace LocaleCatalog

open FileAction (runIn Anchored anchored_pure anchored_throw anchored_inspect)

variable {first second : Workspace} {path : Path} {catalog : Catalog}

/-! ## 1. The files of a catalog -/

theorem readFile_anchored {α : Type} {reader : Json.Reader α} (htree : first.tree = second.tree)
    (habs : path.isAbsolute = true) : readFile reader path first = readFile reader path second :=
  readFile_congr (Workspace.readBytes_anchored htree habs)

theorem anchored_makeParents (habs : path.isAbsolute = true) : Anchored (makeParents path) := by
  unfold makeParents
  split
  · exact anchored_pure ()
  · rename_i parent hparent
    split
    · exact anchored_pure ()
    · have hmem : parent ∈ path.ancestors := List.mem_of_mem_head? hparent
      exact (FileAction.anchored_makeDirectories
        (Path.isAbsolute_of_mem_ancestors habs hmem)).mapError _

theorem anchored_writeFile (habs : path.isAbsolute = true) (text : String) :
    Anchored (writeFile path text) :=
  (anchored_makeParents habs).bind fun _ =>
    (FileAction.anchored_writeBytes habs text.toUTF8).mapError _

namespace Catalog

/-- The paths of the catalog start from the root. -/
structure Absolute (catalog : Catalog) : Prop where
  stores : catalog.stores.isAbsolute = true
  batch : catalog.batch.isAbsolute = true

namespace Absolute

variable (h : catalog.Absolute)

include h

theorem isAbsolute_storePath (locale : String) : (catalog.storePath locale).isAbsolute = true :=
  Path.isAbsolute_div h.stores _

theorem loadStore (htree : first.tree = second.tree) (locale : String) :
    catalog.loadStore locale first = catalog.loadStore locale second := by
  unfold Catalog.loadStore
  rw [readFile_anchored htree (h.isAbsolute_storePath locale)]

theorem loadBatch (htree : first.tree = second.tree) :
    catalog.loadBatch first = catalog.loadBatch second :=
  readFile_anchored htree h.batch

theorem saveStore (locale : String) (messages : Messages) :
    Anchored (catalog.saveStore locale messages) :=
  anchored_writeFile (h.isAbsolute_storePath locale) _

theorem saveBatch (batch : Batch) : Anchored (catalog.saveBatch batch) :=
  anchored_writeFile h.batch _

theorem removeBatch : Anchored catalog.removeBatch :=
  (FileAction.anchored_removeFile h.batch).mapError _

end Absolute

end Catalog

/-! ## 2. Synchronizing -/

namespace Sync

theorem Plan.make_anchored (h : catalog.Absolute) (htree : first.tree = second.tree)
    (keys : KeySet) : Plan.make catalog keys first = Plan.make catalog keys second := by
  unfold Plan.make loadStores
  simp only [h.loadBatch htree, h.loadStore htree]

theorem Plan.anchored_writeBatch (h : catalog.Absolute) (plan : Plan) :
    Anchored (plan.writeBatch catalog) := by
  unfold Plan.writeBatch
  split
  · exact h.removeBatch.bind fun _ => anchored_pure _
  · exact (h.saveBatch _).bind fun _ => anchored_pure _

theorem Plan.anchored_commit (h : catalog.Absolute) (plan : Plan) :
    Anchored (plan.commit catalog) :=
  (Anchored.forM fun locale _ => h.saveStore locale.locale locale.store).bind fun _ =>
    (plan.anchored_writeBatch h).bind fun _ => anchored_pure _

theorem anchored_synchronize (h : catalog.Absolute) (keys : KeySet) :
    Anchored (synchronize catalog keys) :=
  (anchored_inspect fun _ _ htree => Plan.make_anchored h htree keys).bind fun plan =>
    plan.anchored_commit h

end Sync

/-! ## 3. Merging -/

namespace Merge

theorem readTargets_anchored (h : catalog.Absolute) (htree : first.tree = second.tree)
    (items : List (String × Messages)) :
    readTargets catalog first items = readTargets catalog second items := by
  induction items with
  | nil => rfl
  | cons item items ih =>
    rw [readTargets_cons, readTargets_cons, h.loadStore htree, ih]

theorem Plan.make_anchored (h : catalog.Absolute) (htree : first.tree = second.tree) :
    Plan.make catalog first = Plan.make catalog second := by
  unfold Plan.make
  simp only [h.loadBatch htree, h.loadStore htree, readTargets_anchored h htree]

theorem anchored_writeTargets (h : catalog.Absolute) (targets : List Target) :
    Anchored (writeTargets catalog targets) := by
  induction targets with
  | nil => exact anchored_pure _
  | cons target more ih =>
    unfold writeTargets
    dsimp only
    split
    · exact ih
    · refine (h.saveStore target.locale _).outcome.bind fun saved => ih.bind fun written => ?_
      cases saved with
      | error error => exact anchored_pure _
      | ok done => exact anchored_pure _

theorem anchored_retireBatch (h : catalog.Absolute) (batch : Batch) (failures : Failures) :
    Anchored (retireBatch catalog batch failures) := by
  unfold retireBatch
  split
  · exact h.removeBatch.bind fun _ => anchored_pure _
  · exact (h.saveBatch _).bind fun _ => anchored_pure _

theorem Plan.anchored_commit (h : catalog.Absolute) (plan : Plan) :
    Anchored (plan.commit catalog) := by
  refine (anchored_writeTargets h plan.targets).bind fun written => ?_
  dsimp only
  split
  · exact anchored_throw _
  · exact ((anchored_retireBatch h plan.batch _).mapError _).bind fun _ => anchored_pure _

theorem anchored_merge (h : catalog.Absolute) : Anchored (merge catalog) :=
  (anchored_inspect fun _ _ htree => Plan.make_anchored h htree).bind fun plan =>
    plan.anchored_commit h

end Merge

/-! ## 4. Projects -/

theorem Sync.keysOfFiles_anchored {paths : List Path} (htree : first.tree = second.tree)
    (habs : ∀ path ∈ paths, path.isAbsolute = true) (callName : String) :
    keysOfFiles first callName paths = keysOfFiles second callName paths := by
  rw [keysOfFiles_eq, keysOfFiles_eq]
  generalize (∅ : KeySet) = keys
  induction paths generalizing keys with
  | nil => rfl
  | cons path paths ih =>
    obtain ⟨hpath, hpaths⟩ := List.forall_mem_cons.1 habs
    have hstep : addKeys first callName keys path = addKeys second callName keys path := by
      unfold addKeys
      rw [Workspace.readBytes_anchored htree hpath]
    rw [List.foldlM_cons, List.foldlM_cons, hstep]
    exact congrArg _ (funext fun more => ih hpaths more)

namespace Project

/-- The paths of the project start from the root. -/
structure Absolute (project : Project) : Prop where
  sources : project.sourceRoot.isAbsolute = true
  catalog : project.catalog.Absolute

variable {project : Project} {config : Config} {base : Path}

theorem absolute_of_ofConfig (habs : base.isAbsolute = true)
    (h : ofConfig config base = .ok project) : project.Absolute := by
  obtain ⟨-, rfl⟩ := ofConfig_eq_ok.1 h
  exact ⟨Path.isAbsolute_resolve habs _,
    Path.isAbsolute_resolve habs _, Path.isAbsolute_resolve habs _⟩

theorem sourceKeys_anchored (h : project.Absolute) (htree : first.tree = second.tree) :
    project.sourceKeys first = project.sourceKeys second := by
  have hkeys := Sync.keysOfFiles_anchored htree
    (fun _ hpath => Source.isAbsolute_of_mem_paths h.sources hpath :
      ∀ path ∈ project.sources second, path.isAbsolute = true) project.config.callName
  unfold sourceKeys
  rw [Source.scan_anchored htree h.sources]
  dsimp only
  rw [← sources, hkeys]

end Project

/-! ## 5. The same settings -/

namespace Config

theorem settingsIn_anchored (htree : first.tree = second.tree) (directory : Location) :
    settingsIn first directory = settingsIn second directory := by
  have habs : (fileOf directory).isAbsolute = true :=
    Path.isAbsolute_div (Location.isAbsolute_path directory) _
  unfold settingsIn
  rw [Workspace.readText_anchored htree habs]

theorem isAbsolute_of_settingsIn {workspace : Workspace} {directory : Location} {loaded : Loaded}
    (h : settingsIn workspace directory = .ok loaded) : loaded.base.isAbsolute = true := by
  obtain ⟨text, -, h⟩ := bind_eq_ok.1 h
  obtain ⟨config, -, h⟩ := bind_eq_ok.1 h
  cases h
  exact Location.isAbsolute_path directory

end Config

namespace Command

/-- Where the tree is the same, the same settings are loaded from two paths, and their paths start
    from the root. -/
structure SameSettings (first second : Workspace) (start other : Path) : Prop where
  tree : first.tree = second.tree
  load : Config.load first start = Config.load second other
  absolute : ∀ loaded, Config.load first start = .ok loaded → loaded.base.isAbsolute = true

section SameSettings

variable {options : Options} {root : Option String}
  (h : SameSettings first second options.start (Options.start { options with root }))

include h

/-- Whatever is done with the project has the same effect, if that does not depend on the current
    directory. -/
theorem SameSettings.sameEffect {next : Project → FileAction Error Outcome}
    (hnext : ∀ project : Project, project.Absolute → Anchored (next project)) :
    SameEffect
      (runIn (FileAction.inspect (fun workspace =>
        (options.openProject workspace).mapError Error.config) >>= next) first)
      (runIn (FileAction.inspect (fun workspace =>
        (Options.openProject { options with root } workspace).mapError Error.config) >>= next)
        second) := by
  refine FileAction.sameEffect_of_answer h.tree ?_ fun project hopen => hnext project ?_
  · show Except.mapError _ (Config.load first options.start >>= _) =
      Except.mapError _ (Config.load second (Options.start { options with root }) >>= _)
    rw [h.load]
    rfl
  · obtain ⟨loaded, hload, -, hproject⟩ := openProject_eq_ok.1 (mapError_eq_ok.1 hopen)
    exact Project.absolute_of_ofConfig (h.absolute loaded hload) hproject

theorem SameSettings.synchronizeProject : SameEffect (runIn (synchronizeProject options) first)
    (runIn (Command.synchronizeProject { options with root }) second) := by
  refine h.sameEffect fun project habs => ?_
  have hsources : Anchored (FileAction.inspect fun workspace =>
      (project.sourceKeys workspace).mapError Error.sources) :=
    anchored_inspect fun _ _ htree => congrArg _ (Project.sourceKeys_anchored habs htree)
  refine hsources.bind fun sources => ?_
  exact ((Sync.anchored_synchronize habs.catalog sources.keys).mapError _).bind fun _ =>
    anchored_pure _

theorem SameSettings.mergeProject : SameEffect (runIn (mergeProject options) first)
    (runIn (Command.mergeProject { options with root }) second) := by
  refine h.sameEffect fun project habs => ?_
  refine (Merge.anchored_merge habs.catalog).outcome.bind fun result => ?_
  split
  · exact anchored_pure _
  · exact anchored_pure _
  · exact anchored_pure _
  · exact anchored_throw _

theorem SameSettings.projectStatus : SameEffect (runIn (projectStatus options) first)
    (runIn (Command.projectStatus { options with root }) second) := by
  refine h.sameEffect fun project habs => ?_
  have hbatch : Anchored (FileAction.inspect fun workspace =>
      (project.catalog.loadBatch workspace).mapError Error.store) :=
    anchored_inspect fun _ _ htree => congrArg _ (habs.catalog.loadBatch htree)
  exact hbatch.bind fun _ => anchored_pure _

end SameSettings

/-! ## 6. The directory of a command -/

/-- The commands that work on a project. -/
inductive OnProject : (Options → Invocation) → Prop where
  | synchronize : OnProject .synchronize
  | merge : OnProject .merge
  | status : OnProject .status

theorem SameSettings.run {options : Options} {root : Option String}
    (h : SameSettings first second options.start (Options.start { options with root }))
    {command : Options → Invocation} (hcommand : OnProject command) (colours : Bool) :
    SameEffect ((command options).run colours first)
      ((command { options with root }).run colours second) := by
  have hwords {action other : FileAction Error Outcome}
      (heffect : SameEffect (runIn action first) (runIn other second)) :
      SameEffect (Result.ofCommand colours (runIn action first).1, (runIn action first).2)
        (Result.ofCommand colours (runIn other second).1, (runIn other second).2) :=
    ⟨congrArg (Result.ofCommand colours) heffect.given, heffect.tree⟩
  cases hcommand with
  | synchronize => exact hwords h.synchronizeProject
  | merge => exact hwords h.mergeProject
  | status => exact hwords h.projectStatus

/-- Which settings a command gets that starts from the directory, and where else it has the same
    effect. -/
structure Steered (disk : Disk) (start : Path) (place : Location) : Prop where
  /-- The search starts from the absolute path of the directory. -/
  absolute : disk.absolute start = .ok (Location.path place)
  /-- Where the file of a directory governs, its settings are loaded, or there is an error that says
      why they cannot be. -/
  governed : ∀ above, Config.Governs disk.tree place above →
    Config.load disk start = Config.settingsIn disk above
  /-- Where no file governs, the defaults are loaded, and paths start from the directory itself. -/
  free : (∀ above, ¬ Config.Governs disk.tree place above) →
    Config.load disk start = .ok ⟨Config.default, Location.path place, false⟩
  /-- From another directory that the same file governs the same is loaded, and a command does the
      same. -/
  alike : ∀ (other : Disk) (start' : Path) (place' above : Location),
    disk.tree = other.tree → Config.StartsIn other start' place' →
    Config.Governs disk.tree place above → Config.Governs disk.tree place' above →
    Config.load disk start = Config.load other start' ∧
      ∀ (colours : Bool) (options : Options) (root : Option String)
        (command : Options → Invocation), OnProject command →
        options.start = start → Options.start { options with root } = start' →
        SameEffect ((command options).run colours disk)
          ((command { options with root }).run colours other)

theorem steered {disk : Disk} {start : Path} {place : Location}
    (h : Config.StartsIn disk start place) : Steered disk start place := by
  constructor
  case absolute => exact h.absolute_eq
  case governed => exact fun above => h.load_of_governs
  case free => exact h.load_of_free
  case alike =>
    intro other start' place' above htree h' hgoverns hgoverns'
    have hload := h.load_of_governs hgoverns
    have hload' := h'.load_of_governs (htree ▸ hgoverns')
    have hsame : Config.load disk start = Config.load other start' := by
      rw [hload, hload', Config.settingsIn_anchored htree]
    refine ⟨hsame, fun colours options root command hcommand hstart hstart' => ?_⟩
    subst hstart hstart'
    have hsettings : SameSettings disk other options.start
        (Options.start { options with root }) := by
      refine ⟨htree, hsame, fun loaded hloaded => ?_⟩
      rw [hload] at hloaded
      exact Config.isAbsolute_of_settingsIn hloaded
    exact hsettings.run hcommand colours

/-- A project with a configuration file at its top, seen from a directory two levels below. -/
def nestedProject : Disk where
  tree := ⟨.ofList [
    (["p"], Entry.directory),
    (["p", ".git"], Entry.directory),
    (["p", ".glotsyncrc.json"],
      Entry.file "\x7b\"locales\": [\"en\", \"fr\"]\x7d".toUTF8),
    (["p", "src"], Entry.directory),
    (["p", "src", "a.ts"], Entry.file "tr('a')".toUTF8),
    (["p", "src", "deep"], Entry.directory)], fun _ => none⟩
  current := ["p", "src", "deep"]
  wellFormed := by decide +kernel

/-- The command does the same from below as with the top as an option. -/
theorem steered_sample : Steered nestedProject ⟨"."⟩ ["p", "src", "deep"] ∧
    Config.load nestedProject ⟨"."⟩ = Config.settingsIn nestedProject ["p"] ∧
    SameEffect ((Invocation.synchronize {}).run false nestedProject)
      ((Invocation.synchronize { root := some "../.." }).run false nestedProject) := by
  have hstart : Config.StartsIn nestedProject ⟨"."⟩ ["p", "src", "deep"] :=
    ⟨by rfl, by decide +kernel⟩
  have htop : Config.StartsIn nestedProject ⟨"../.."⟩ ["p"] :=
    ⟨by rfl, by decide +kernel⟩
  have hsteered := steered hstart
  have hgoverns : Config.Governs nestedProject.tree ["p", "src", "deep"] ["p"] := by decide +kernel
  have halike := hsteered.alike nestedProject ⟨"../.."⟩ ["p"] ["p"] rfl htop hgoverns
    (by decide +kernel)
  exact ⟨hsteered, hsteered.governed _ hgoverns,
    halike.2 false {} (some "../..") .synchronize .synchronize rfl rfl⟩

end Command

end LocaleCatalog
