import LocaleCatalog.Command.Report

/-!
# Running a command

`Invocation.run` does what a command line asks for and says in words what came of it. The commands
that work on a project find its configuration first, put the options over it, and check the result
(`openProject`).
-/

namespace LocaleCatalog.Command

/-! ## 1. The project of a command -/

/-- The settings with the overriding options put over them. -/
def Options.override (options : Options) (config : Config) : Config :=
  { config with
    canonicalLocale := options.canonicalLocale.getD config.canonicalLocale
    sourceRoot := options.sourceRoot.getD config.sourceRoot
    localesRoot := options.localesRoot.getD config.localesRoot }

/-- The project that a command works on. -/
def Options.openProject (options : Options) (workspace : Workspace) :
    Except Config.Error Project := do
  let loaded ← Config.load workspace ⟨options.root.getD "."⟩
  Project.ofConfig (options.override loaded.config) loaded.base

/-! ## 2. Commands -/

/-- Makes every store hold exactly the keys of the sources. -/
def synchronizeProject (options : Options) : FileAction Error Outcome := do
  let project ← FileAction.inspect fun workspace =>
    (options.openProject workspace).mapError Error.config
  let sources ← FileAction.inspect fun workspace =>
    (project.sourceKeys workspace).mapError Error.sources
  let report ← (Sync.synchronize project.catalog sources.keys).mapError Error.store
  return .synchronized sources.files report project.catalog.batch options.verbose

/-- Puts the texts of the batch into the stores. -/
def mergeProject (options : Options) : FileAction Error Outcome := do
  let project ← FileAction.inspect fun workspace =>
    (options.openProject workspace).mapError Error.config
  let batch := project.catalog.batch
  match ← FileAction.outcome (Merge.merge project.catalog) with
  | .ok report => return .merged report batch
  | .error (.nothingToMerge _) => return .nothingToMerge batch
  | .error (.incomplete problems) => return .rejected problems batch
  | .error error => throw (.merge error)

/-- Looks at the batch. -/
def projectStatus (options : Options) : FileAction Error Outcome := do
  let project ← FileAction.inspect fun workspace =>
    (options.openProject workspace).mapError Error.config
  let batch ← FileAction.inspect fun workspace =>
    (project.catalog.loadBatch workspace).mapError Error.store
  return .status (batch.map batchStatus) project.catalog.batch

/-- Writes a configuration file with the defaults into the current directory. -/
def createConfig : FileAction Error Outcome := do
  let path : Path := ⟨Config.fileName⟩
  if (← get).contains path then return .configExists
  (FileAction.writeText path (Config.default.write ++ "\n")).mapError Error.configNotWritten
  return .configCreated

/-! ## 3. Invocations -/

/-- What a run of the program leaves behind besides files. -/
structure Result where
  exitCode : Nat
  output : String
  errors : String

/-- The words and the exit code of a command. -/
def Result.ofCommand (colours : Bool) : Except Error Outcome → Result
  | .ok outcome =>
    let report := outcome.report colours
    ⟨outcome.exitCode, lines report.output, lines report.errors⟩
  | .error error =>
    let report := error.report colours
    ⟨brokenOff, lines report.output, lines report.errors⟩

/-- The words and the exit code for arguments that are no command. -/
def Result.ofUsage (error : UsageError) : Result :=
  ⟨error.exitCode, lines error.report.output, lines error.report.errors⟩

/-- Does what is asked for. -/
def Invocation.run (colours : Bool) (invocation : Invocation) (workspace : Workspace) :
    Result × Workspace :=
  let perform (command : FileAction Error Outcome) : Result × Workspace :=
    let (outcome, after) := command.run.run workspace
    (Result.ofCommand colours outcome, after)
  match invocation with
  | .help => (⟨0, lines helpLines, ""⟩, workspace)
  | .synchronize options => perform (synchronizeProject options)
  | .merge options => perform (mergeProject options)
  | .status options => perform (projectStatus options)
  | .init => perform createConfig

end LocaleCatalog.Command
