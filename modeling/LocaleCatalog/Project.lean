import LocaleCatalog.Catalog.Files
import LocaleCatalog.Config.Locate
import LocaleCatalog.Sync.Keys

/-!
# Projects

A `Project` is a valid configuration whose paths were resolved: where the sources are, and the
catalog. `Project.sourceKeys` are the keys that all its sources use; a project without any source
file is taken for a mistake, since it would empty every store.
-/

namespace LocaleCatalog

/-- A configuration with its paths resolved. -/
structure Project where
  config : Config
  sourceRoot : Path
  catalog : Catalog

namespace Project

/-- The project of a configuration whose paths start from `base`, unless something is wrong with
    the settings. -/
def ofConfig (config : Config) (base : Path) : Except Config.Error Project :=
  match config.problem? with
  | some problem => .error (.invalid problem)
  | none => .ok {
      config
      sourceRoot := base.resolve ⟨config.sourceRoot⟩
      catalog := {
        locales := LocaleSet.ofList config.canonicalLocale config.locales
        stores := base.resolve ⟨config.localesRoot⟩
        batch := base.resolve ⟨config.pendingFile⟩ } }

/-- The keys of the sources, and the number of source files. -/
structure SourceKeys where
  files : Nat
  keys : KeySet

/-- Collects the keys of all source files. -/
def sourceKeys (project : Project) (workspace : Workspace) :
    Except Sync.SourceError SourceKeys := do
  let files := (Source.scan workspace project.sourceRoot project.config.filter).files
  if files.isEmpty then throw (.noSourceFiles project.sourceRoot)
  return ⟨files.size, ← Sync.keysOfFiles workspace project.config.callName files.paths⟩

end Project

end LocaleCatalog
