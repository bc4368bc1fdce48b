import LocaleCatalog.Glob.Expand

/-!
# The source files of a project

* Files are looked for below the scan roots: the base directory, or what the includes name in it;
* a file counts if its extension is listed and nothing ignores it. A literal ignore hides every
  path that starts with it; a pattern hides the paths whose spelling it matches;
* two spellings of one path are one file, which keeps the spelling that was found first, and the
  files are ordered by their components.

A text with `*` or `?` in it is a pattern, any other a literal path.
-/

namespace LocaleCatalog.Source

/-! ## 1. Filters -/

/-- Which files of a tree are sources. -/
structure Filter where
  includes : List String
  ignores : List String
  extensions : List String

/-- The text is a pattern and no literal path. -/
def isPattern (text : String) : Bool :=
  text.toList.any fun c => c = '*' || c = '?'

/-- The paths that are ignored with all that starts with them. -/
def Filter.ignoredPaths (filter : Filter) (base : Path) : List Path :=
  (filter.ignores.filter fun text => !isPattern text).map fun text => base / text

/-- The patterns of paths that are ignored. One that cannot be read ignores nothing. -/
def Filter.ignoredPatterns (filter : Filter) : List Glob.Pattern :=
  (filter.ignores.filter isPattern).filterMap fun text => (Glob.Pattern.parse text).toOption

/-- Something in the filter ignores the path. -/
def Filter.isIgnored (filter : Filter) (base path : Path) : Bool :=
  (filter.ignoredPaths base).any (·.isStartOf path) ||
    filter.ignoredPatterns.any (·.matchesText path.text)

/-- The extension of the path is listed. -/
def Filter.isSource (filter : Filter) (path : Path) : Bool :=
  match path.extension? with
  | some extension => extension ∈ filter.extensions
  | none => false

/-! ## 2. Scan roots -/

/-- The roots that one include names: the directories that a pattern names, or a literal path if
    something stands there. -/
def rootsOf (workspace : Workspace) (base : Path) (item : String) : List Path :=
  if isPattern item then
    match Glob.directories workspace (base / item) with
    | .ok found => found
    | .error _ => []
  else if workspace.contains (base / item) then [base / item]
  else []

/-- Where files are looked for. -/
def scanRoots (workspace : Workspace) (base : Path) (filter : Filter) : List Path :=
  if filter.includes = [] then [base] else filter.includes.flatMap (rootsOf workspace base)

/-! ## 3. Scanning -/

/-- Files by their components, with the spelling they were found under. -/
abbrev FileSet : Type := Std.ExtTreeMap (List Component) Path

/-- The files found, and how many scan roots could not be looked at. -/
structure Scan where
  files : FileSet
  skipped : Nat

/-- The spellings of the files found, in the order of their components. -/
def FileSet.paths (files : FileSet) : List Path :=
  files.toList.map (·.2)

/-- The files at a scan root and below it, whatever their name. -/
def filesUnder (workspace : Workspace) (root : Path) : List Path :=
  match workspace.walk root with
  | .error _ => []
  | .ok entries =>
    entries.filterMap fun
      | (path, .file _) => some path
      | (_, .directory) => none

/-- Looks for the source files at and below `base`. -/
def scan (workspace : Workspace) (base : Path) (filter : Filter) : Scan :=
  let roots := scanRoots workspace base filter
  let found := (roots.flatMap (filesUnder workspace)).filter fun path =>
    !filter.isIgnored base path && filter.isSource path
  { files := found.foldl (fun files path => files.insertIfNew path.components path) ∅
    skipped := roots.countP fun root => !(workspace.walk root).isOk }

end LocaleCatalog.Source
