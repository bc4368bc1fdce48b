import LocaleCatalog.FileTree.Access
import LocaleCatalog.Glob.Pattern

/-!
# The directories that a pattern names

A pattern is taken apart at its slashes and followed through the tree component by component:

* a component without wildcards is joined to the path reached so far, if that names something;
* one with wildcards picks among the entries of the directory reached so far, in order. One that
  starts with a dot of its own picks `..` and `.` as well, before all others;
* `**` reaches every entry at any depth below, and the next component picks among those.

A path that has not left the starting directory is not written out.
-/

namespace LocaleCatalog.Glob

/-! ## 1. Components of a pattern -/

/-- The pieces of a pattern between its slashes; a slash at the end adds none. -/
def componentTexts (pattern : Path) : List String :=
  let pieces := pattern.segments.drop (if pattern.isAbsolute then 1 else 0)
  if pieces.getLast? = some "" then pieces.dropLast else pieces

/-- The patterns of all components. A class or a wildcard cannot reach over a slash. -/
def componentPatterns (pattern : Path) : Except PatternError (List Pattern) := do
  let _ ← Pattern.parse pattern.text
  (componentTexts pattern).mapM Pattern.parse

/-! ## 2. One component -/

/-- A name seen from the path reached so far. -/
def reach (path : Path) (name : String) : Path :=
  if path.components = [.here] then ⟨name⟩ else path / name

/-- The entries below a path at any depth, each with its name, a directory before what it holds. -/
def entriesBelow (workspace : Workspace) (path : Path) : List (String × Path) :=
  match workspace.locate path with
  | .error _ => []
  | .ok place =>
    if workspace.tree.find? place = some .directory then
      (workspace.tree.below place).filterMap fun found =>
        match found.1 with
        | [] => none
        | first :: more =>
          some ((first :: more).getLast (List.cons_ne_nil _ _),
            more.foldl (fun spelled name => spelled / name) (reach path first))
    else []

/-- The special names that a component picks: only one that starts with a dot does. -/
def specialNames (pattern : Pattern) : List String :=
  match pattern.tokens with
  | .char '.' :: _ => ["..", "."].filter pattern.matchesText
  | _ => []

/-! ## 3. All components -/

/-- The paths that the components lead to from a path that was reached. -/
def expandFrom (workspace : Workspace) : List Pattern → Path → List Path
  | [], path => [path]
  | pattern :: patterns, path =>
    match pattern.literal? with
    | some name =>
      let next := reach path name
      let present :=
        if name = "." ∨ name = ".." then workspace.isDirectory path else workspace.contains next
      if present then expandFrom workspace patterns next else []
    | none =>
      if workspace.isDirectory path then
        if pattern.isRecursive then
          (entriesBelow workspace path).flatMap fun (name, below) =>
            afterRecursive workspace patterns name below
        else
          ((specialNames pattern).flatMap fun name =>
            expandFrom workspace patterns (path / name)) ++
          ((workspace.namesIn path).filter pattern.matchesText).flatMap fun name =>
            expandFrom workspace patterns (reach path name)
      else []
where
  /-- The paths that the components behind `**` lead to from an entry that `**` reached. -/
  afterRecursive (workspace : Workspace) : List Pattern → String → Path → List Path
    | [], _, path => [path]
    | pattern :: patterns, name, path =>
      if pattern.isRecursive then afterRecursive workspace patterns name path
      else if pattern.matchesText name then expandFrom workspace patterns path
      else []

/-- The directories that a pattern names, spelled as they were reached. -/
def directories (workspace : Workspace) (pattern : Path) : Except PatternError (List Path) := do
  let patterns ← componentPatterns pattern
  let start : Path := if pattern.isAbsolute then ⟨"/"⟩ else ⟨"."⟩
  return (expandFrom workspace patterns start).filter workspace.isDirectory

end LocaleCatalog.Glob
