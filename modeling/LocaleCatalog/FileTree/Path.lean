import Std.Data.ExtTreeMap

/-!
# Paths

A path is kept as it was spelled. What it says is read from its `components`: doubled and trailing
slashes count for nothing, and a dot counts only at the very start. Two paths with equal components
are the same path; messages and files found show the spelling.

* `Path.join` puts one path behind another, and an absolute one in its place;
* `Path.ancestors` cuts off one component after the other;
* `Path.extension?` is what stands behind the last dot of the last name.
-/

namespace LocaleCatalog

/-! ## 1. Spelling and components -/

/-- A path, as it is spelled. -/
structure Path where
  text : String
  deriving DecidableEq

/-- What a path says, step by step. -/
inductive Component where
  | root
  | here
  | up
  | name (name : String)
  deriving DecidableEq

namespace Component

/-- Components are ordered by kind. -/
def rank : Component → Nat
  | .root => 0
  | .here => 1
  | .up => 2
  | .name _ => 3

/-- The name of a component, empty for the other kinds. -/
def label : Component → String
  | .name s => s
  | _ => ""

instance : Ord Component where
  compare := compareLex (compareOn rank) (compareOn label)

instance : Std.TransOrd Component :=
  inferInstanceAs (Std.TransCmp (compareLex (compareOn rank) (compareOn label)))

instance : Std.LawfulEqOrd Component where
  compare_self {a} := by
    have h : (compareOn rank a a).then (compareOn label a a) = .eq := by
      rw [Ordering.then_eq_eq]
      exact ⟨Std.ReflOrd.compare_self, Std.ReflOrd.compare_self⟩
    exact h
  eq_of_compare {a b} h := by
    have h : (compareOn rank a b).then (compareOn label a b) = .eq := h
    rw [Ordering.then_eq_eq] at h
    have hr : a.rank = b.rank := Std.LawfulEqOrd.eq_of_compare h.1
    have hl : a.label = b.label := Std.LawfulEqOrd.eq_of_compare h.2
    cases a <;> cases b <;> simp_all [rank, label]

end Component

namespace Path

/-- Splits at every slash; there is one more piece than there are slashes. -/
def pieces : List Char → List (List Char)
  | [] => [[]]
  | c :: cs =>
    if c = '/' then [] :: pieces cs
    else match pieces cs with
      | piece :: more => (c :: piece) :: more
      | [] => [[c]]

/-- The pieces between the slashes. -/
def segments (path : Path) : List String :=
  (pieces path.text.toList).map String.ofList

/-- A path that starts at the root. -/
def isAbsolute (path : Path) : Bool :=
  path.text.toList.head? = some '/'

/-- A piece that says nothing by itself. -/
def isSilent (segment : String) : Bool :=
  segment = "" || segment = "."

/-- The component that a piece stands for. -/
def component? (segment : String) : Option Component :=
  if isSilent segment then none
  else if segment = ".." then some .up
  else some (.name segment)

/-- What the path says. -/
def components (path : Path) : List Component :=
  let start :=
    if path.isAbsolute then [.root]
    else if path.segments.head? = some "." then [.here]
    else []
  start ++ path.segments.filterMap component?

/-- The first path, component by component, is the start of the second. -/
def isStartOf (start path : Path) : Bool :=
  start.components.isPrefixOf path.components

/-! ## 2. Joining -/

/-- The second path seen from the first. -/
def join (base path : Path) : Path :=
  if path.isAbsolute then path
  else if base.text = "" ∨ base.text.toList.getLast? = some '/' then ⟨base.text ++ path.text⟩
  else ⟨base.text ++ "/" ++ path.text⟩

instance : HDiv Path String Path where
  hDiv base name := base.join ⟨name⟩

/-! ## 3. Going up -/

/-- A path in two parts: the slash or dot that it starts with, and the pieces behind it. -/
def spelling (path : Path) : String × List String :=
  if path.isAbsolute then ("/", path.segments.drop 1)
  else
    match path.segments with
    | "." :: rest => (".", if rest = [] then [] else "" :: rest)
    | all => ("", all)

/-- The path with a start and pieces behind it. -/
def ofSpelling (start : String) (segments : List String) : Path :=
  ⟨start ++ "/".intercalate segments⟩

/-- The ancestors of the path whose pieces are given backwards, the nearest first. -/
def ancestorsOf (start : String) (backwards : List String) : List Path :=
  match h : backwards.dropWhile isSilent with
  | [] => if start = "." then [⟨""⟩] else []
  | _ :: rest =>
    have : (rest.dropWhile isSilent).length < backwards.length := by
      have h₁ := (List.dropWhile_suffix isSilent (l := backwards)).length_le
      have h₂ := (List.dropWhile_suffix isSilent (l := rest)).length_le
      rw [h, List.length_cons] at h₁
      omega
    ofSpelling start (rest.dropWhile isSilent).reverse ::
      ancestorsOf start (rest.dropWhile isSilent)
termination_by backwards.length

/-- The path with its last component cut off, that with its last cut off, and so on. The last
    ancestor of a relative path is the empty path, and that of an absolute path is the root. -/
def ancestors (path : Path) : List Path :=
  ancestorsOf path.spelling.1 path.spelling.2.reverse

/-- The path with its last component cut off. -/
def parent? (path : Path) : Option Path :=
  path.ancestors.head?

/-- The path without the dot it starts with. Only where there is one, silent pieces at both ends
    go with it. -/
def withoutDot (path : Path) : Path :=
  match path.spelling with
  | (".", segments) =>
    ofSpelling "" ((segments.dropWhile isSilent).reverse.dropWhile isSilent).reverse
  | _ => path

/-- A path from a configuration: an absolute one stands for itself, any other is seen from
    `base`. -/
def resolve (base path : Path) : Path :=
  if path.isAbsolute then path else base.join path.withoutDot

/-! ## 4. Names -/

/-- The last name of the path, unless it ends by going up. -/
def fileName? (path : Path) : Option String :=
  match path.components.getLast? with
  | some (.name name) => some name
  | _ => none

/-- What stands behind the last dot of a name that does not start with that dot. -/
def extensionOf? (name : String) : Option String :=
  let backwards := name.toList.reverse
  match backwards.dropWhile (· ≠ '.') with
  | _ :: _ :: _ => some (String.ofList (backwards.takeWhile (· ≠ '.')).reverse)
  | _ => none

/-- The extension of the last name. -/
def extension? (path : Path) : Option String :=
  path.fileName?.bind extensionOf?

end Path

end LocaleCatalog
