import LocaleCatalog.Command.Run

/-!
# What a command looks at

The paths that decide what a command does, so that no more than these need be known of a disk:
where the configuration is searched, and the files of the project that was found. The sources are
not among them, since only a scan tells which these are.
-/

namespace LocaleCatalog.Command

/-- The options of a command that works on a project. -/
def Invocation.options? : Invocation → Option Options
  | .synchronize options | .merge options | .status options => some options
  | .help | .init => none

/-- The command reads source files. -/
def Invocation.readsSources : Invocation → Bool
  | .synchronize _ => true
  | _ => false

/-- Where a command starts. -/
def Invocation.start (invocation : Invocation) : Path :=
  ⟨((invocation.options?.bind (·.root)).getD ".")⟩

/-- The paths that are looked at in the search for a configuration from a directory on. -/
def searchedFrom (directory : Path) : List Path :=
  (directory :: directory.ancestors).flatMap fun outer =>
    [outer / Config.fileName, outer / Config.topMark]

/-- The paths that a command looks at before it knows the project. -/
def Invocation.searched (invocation : Invocation) (workspace : Workspace) : List Path :=
  match invocation with
  | .help => []
  | .init => [⟨Config.fileName⟩]
  | _ => (workspace.absolute invocation.start).toOption.elim [] searchedFrom

/-- The literal includes of a project. -/
def namedSources (project : Project) : List Path :=
  (project.config.includes.filter fun text => !Source.isPattern text).map fun text =>
    project.sourceRoot / text

/-- The paths that a command looks at in a project, besides what a scan finds. -/
def projectPaths (project : Project) : List Path :=
  project.sourceRoot :: project.catalog.batch ::
    (namedSources project ++ project.catalog.locales.locales.map project.catalog.storePath)

/-- The paths that a command looks at once the configuration is known. -/
def Invocation.used (invocation : Invocation) (workspace : Workspace) : List Path :=
  match invocation.options? with
  | none => []
  | some options => (options.openProject workspace).toOption.elim [] projectPaths

end LocaleCatalog.Command
