import Mathlib.Data.List.Basic
import LocaleCatalog.Proofs.FileTree.Graft
import LocaleCatalog.Proofs.Glob.Pattern

/-!
# Following a pattern at another place

A pattern is followed through a tree component by component. Where a directory holds the tree, each
component leads from a moved path to where it leads from the path itself, moved, and so does the
whole pattern (`Glob.expandFrom_eq_map`). Two things could be in the way:

* a component that leads up may leave the tree. `Glob.Pattern.Descends` excludes it;
* a moved path may be too long to be followed. A path that was reached is no longer than the names
  of its entry and what the components spent on it (`FileTree.Reached`), and there must be room for
  that (`FileTree.Roomy`).
-/

namespace LocaleCatalog

/-! ## 1. Short spellings -/

/-- How many bytes the names of a place and the slashes before them take. -/
def Location.size : Location → Nat
  | [] => 0
  | name :: names => name.utf8ByteSize + 1 + Location.size names

theorem Location.size_append (place inside : Location) :
    Location.size (place ++ inside) = Location.size place + Location.size inside := by
  induction place with
  | nil => simp [Location.size]
  | cons name place ih =>
    rw [List.cons_append, Location.size, Location.size, ih]
    omega

/-- The pieces of a text are as long as the text and a slash before it. -/
theorem Path.size_pieces (cs : List Char) :
    Location.size ((pieces cs).map String.ofList) = (String.ofList cs).utf8ByteSize + 1 := by
  induction cs with
  | nil => decide
  | cons c cs ih =>
    have hcons (cs : List Char) : (String.ofList (c :: cs)).utf8ByteSize =
        c.utf8Size + (String.ofList cs).utf8ByteSize := by
      rw [String.ofList_cons, String.utf8ByteSize_append, String.utf8ByteSize_singleton]
    rw [pieces, hcons]
    split
    · rename_i hc
      have hsize : c.utf8Size = 1 := by rw [hc]; decide
      have hnone : (String.ofList []).utf8ByteSize = 0 := by decide
      rw [List.map_cons, Location.size, ih, hsize, hnone]
      omega
    · split
      · rename_i piece more hpieces
        rw [hpieces, List.map_cons, Location.size] at ih
        rw [List.map_cons, Location.size, hcons]
        omega
      · rename_i hpieces
        exact absurd hpieces (pieces_ne_nil cs)

/-- An absolute path that does not go up and is spelled with so many bytes besides its names. -/
structure Path.Spells (spent : Nat) (path : Path) : Prop where
  absolute : path.isAbsolute = true
  plain : path.IsPlain
  size : path.text.utf8ByteSize ≤ spent + Location.size path.steps

namespace Path.Spells

variable {spent more : Nat} {path : Path} {name : String}

theorem mono (h : path.Spells spent) (hle : spent ≤ more) : path.Spells more :=
  ⟨h.absolute, h.plain, le_trans h.size (Nat.add_le_add_right hle _)⟩

theorem steps_div (h : path.Spells spent) (hname : '/' ∉ name.toList) :
    (path / name).steps = path.steps ++ [name].filter fun segment => !isSilent segment :=
  Path.steps_div (ne_of_isAbsolute h.absolute) hname

/-- A piece put behind the path may be paid for in full. -/
theorem div (h : path.Spells spent) (hname : '/' ∉ name.toList) (hup : name ≠ "..") :
    (path / name).Spells (spent + (name.utf8ByteSize + 1)) := by
  refine ⟨isAbsolute_div h.absolute _,
    isPlain_div (ne_of_isAbsolute h.absolute) h.plain hname hup, ?_⟩
  have hsize := h.size
  have hdiv := size_div_le path name
  rw [h.steps_div hname, Location.size_append]
  omega

/-- The name of an entry is among the names of the path, and costs nothing. -/
theorem enter (h : path.Spells spent) (hname : IsName name) :
    (path / name).Spells spent ∧ (path / name).steps = path.steps ++ [name] := by
  have hsteps : (path / name).steps = path.steps ++ [name] := by
    rw [h.steps_div hname.1]
    simp [hname.2.1]
  refine ⟨⟨isAbsolute_div h.absolute _,
    isPlain_div (ne_of_isAbsolute h.absolute) h.plain hname.1 hname.2.2, ?_⟩, hsteps⟩
  have hsize := h.size
  have hdiv := size_div_le path name
  rw [hsteps, Location.size_append]
  simp only [Location.size]
  omega

theorem foldl (h : path.Spells spent) {names : List String}
    (hnames : ∀ name ∈ names, IsName name) :
    (names.foldl (fun spelled name => spelled / name) path).Spells spent ∧
      (names.foldl (fun spelled name => spelled / name) path).steps = path.steps ++ names := by
  induction names generalizing path with
  | nil => exact ⟨h, (List.append_nil _).symm⟩
  | cons name names ih =>
    obtain ⟨hname, hnames⟩ := List.forall_mem_cons.1 hnames
    obtain ⟨hnext, hsteps⟩ := h.enter hname
    obtain ⟨hlast, hall⟩ := ih hnext hnames
    refine ⟨hlast, hall.trans ?_⟩
    rw [hsteps, List.append_assoc]
    rfl

end Path.Spells

/-! ## 2. Entries that were reached -/

namespace FileTree

variable {tree : FileTree} {spent more budget : Nat} {path base : Path} {name : String}
  {place : Location}

/-- A path that leads to an entry of the tree. -/
structure Reached (tree : FileTree) (spent : Nat) (path : Path) : Prop extends
    path.Spells spent where
  stands : (tree.find? path.steps).isSome = true

/-- From the base there is room for the path of every entry, and some bytes more. -/
def Roomy (tree : FileTree) (base : Path) (budget : Nat) : Prop :=
  ∀ place, (tree.find? place).isSome = true →
    base.text.utf8ByteSize + budget + Location.size place ≤ longestPath

/-- There is room if there is some for the root and for all that the tree names. -/
theorem roomy_iff : tree.Roomy base budget ↔ base.text.utf8ByteSize + budget ≤ longestPath ∧
    ∀ found ∈ tree.below [],
      base.text.utf8ByteSize + budget + Location.size found.1 ≤ longestPath := by
  constructor
  · intro h
    refine ⟨h [] (by rw [find?_root]; rfl), fun found hfound => h found.1 ?_⟩
    have hstands := (mem_below.1 hfound).2
    rw [List.nil_append] at hstands
    rw [hstands]
    rfl
  · intro h place hstands
    obtain ⟨entry, hentry⟩ := Option.isSome_iff_exists.1 hstands
    by_cases hroot : place = []
    · rw [hroot]
      exact h.1
    · exact h.2 (place, entry) (mem_below.2 ⟨hroot, hentry⟩)

instance (tree : FileTree) (base : Path) (budget : Nat) : Decidable (tree.Roomy base budget) :=
  decidable_of_iff _ roomy_iff.symm

/-- A path of an entry that does not spend more than there is room for is short enough. -/
theorem Roomy.isShort (h : tree.Roomy base budget) (hstands : (tree.find? place).isSome = true)
    (hsize : path.text.utf8ByteSize ≤ budget + Location.size place) :
    (base.under path).IsShort := by
  have hroom := h place hstands
  have hfront : (String.ofList base.front).utf8ByteSize ≤ base.text.utf8ByteSize := by
    refine Workspace.size_le_of_isStart ?_
    rw [String.toList_ofList]
    exact base.front_isStart
  have hunder : (base.under path).text.utf8ByteSize =
      (String.ofList base.front).utf8ByteSize + path.text.utf8ByteSize :=
    String.utf8ByteSize_append
  unfold Path.IsShort
  omega

theorem locate_alone (hlocate : tree.alone.locate path = .ok place) (h : path.Spells spent) :
    place = path.steps := by
  rw [Workspace.locate_eq_place hlocate h.plain, Path.placeFrom, if_pos h.absolute]
  rfl

namespace Reached

theorem mono (h : tree.Reached spent path) (hle : spent ≤ more) : tree.Reached more path :=
  ⟨h.toSpells.mono hle, h.stands⟩

/-- What stands at a path was reached with it. -/
theorem of_contains (h : path.Spells spent) (hcontains : tree.alone.contains path = true) :
    tree.Reached spent path := by
  unfold Workspace.contains at hcontains
  cases hentry : tree.alone.entryAt path with
  | error error =>
    rw [hentry] at hcontains
    cases hcontains
  | ok entry =>
    obtain ⟨place, hlocate, hfind⟩ := Workspace.entryAt_eq_ok.1 hentry
    obtain rfl := locate_alone hlocate h
    exact ⟨h, Option.isSome_iff_exists.2 ⟨entry, hfind⟩⟩

theorem root : tree.Reached 1 ⟨"/"⟩ := by
  refine ⟨⟨by decide, by decide, by decide⟩, ?_⟩
  have hsteps : (⟨"/"⟩ : Path).steps = [] := by decide
  rw [hsteps, find?_root]
  rfl

/-- A dot does not lead on. -/
theorem dot (h : tree.Reached spent path) : tree.Reached (spent + 2) (path / ".") := by
  have hname : '/' ∉ ".".toList := by decide
  have hsteps : (path / ".").steps = path.steps := by
    rw [h.steps_div hname]
    simp [Path.isSilent]
  refine ⟨h.div hname (by decide), ?_⟩
  rw [hsteps]
  exact h.stands

/-- The entries of a directory are reached at no cost. -/
theorem of_mem_namesIn (h : tree.Reached spent path) (hnamed : tree.Named)
    (hname : name ∈ tree.alone.namesIn path) :
    Path.IsName name ∧ tree.Reached spent (path / name) := by
  unfold Workspace.namesIn at hname
  split at hname
  · cases hname
  · rename_i place hlocate
    obtain rfl := locate_alone hlocate h.toSpells
    split at hname
    · obtain ⟨⟨inside, entry⟩, hfound, hinside⟩ := List.mem_filterMap.1 hname
      dsimp only at hinside
      split at hinside
      · cases hinside
        have hisName := hnamed.of_mem hfound name List.mem_cons_self
        obtain ⟨hspells, hsteps⟩ := h.enter hisName
        refine ⟨hisName, hspells, ?_⟩
        rw [hsteps]
        exact Option.isSome_iff_exists.2 ⟨entry, (mem_below.1 hfound).2⟩
      · cases hinside
    · cases hname

theorem mirrors {workspace : Workspace} (h : tree.Reached spent path)
    (hholds : workspace.Holds base place tree) (hroom : tree.Roomy base budget)
    (hspent : spent ≤ budget) : workspace.Mirrors base place tree (base.under path) path := by
  have hsize := h.size
  exact hholds.mirrors_under h.absolute h.plain (hroom.isShort h.stands (by omega))

end Reached

end FileTree

namespace Glob

/-! ## 3. Components that lead down -/

/-- A component of a pattern that never leads up, and stands for one component of a path. -/
structure Pattern.Descends (pattern : Pattern) : Prop where
  literal : ∀ name, pattern.literal? = some name → '/' ∉ name.toList ∧ name ≠ ".."
  special : ".." ∉ specialNames pattern

/-- What a component of a pattern may add to a path: its name and a slash, or a dot and a slash. The
    names of entries that wildcards pick are not counted. -/
def Pattern.cost (pattern : Pattern) : Nat :=
  match pattern.literal? with
  | some name => name.utf8ByteSize + 1
  | none => 2

/-- What all components together may add. -/
def totalCost : List Pattern → Nat
  | [] => 0
  | pattern :: patterns => pattern.cost + totalCost patterns

theorem Pattern.cost_of_literal {pattern : Pattern} {name : String}
    (h : pattern.literal? = some name) : pattern.cost = name.utf8ByteSize + 1 := by
  rw [Pattern.cost, h]

theorem Pattern.cost_of_none {pattern : Pattern} (h : pattern.literal? = none) :
    pattern.cost = 2 := by
  rw [Pattern.cost, h]

theorem Pattern.cost_le {text : String} {pattern : Pattern} (h : Pattern.parse text = .ok pattern) :
    pattern.cost ≤ text.utf8ByteSize + 1 := by
  unfold Pattern.cost
  split
  · rename_i name hname
    rw [eq_of_literal? h hname]
  · rename_i hnone
    have hne : text ≠ "" := by
      intro heq
      rw [heq, parse_of_isBare (by decide)] at h
      cases h
      cases hnone
    have hsize : text.utf8ByteSize ≠ 0 := by simpa using hne
    omega

/-- Patterns that were read one by one cost no more than their texts are long. -/
theorem totalCost_le {texts : List String} {patterns : List Pattern}
    (h : texts.mapM Pattern.parse = .ok patterns) : totalCost patterns ≤ Location.size texts := by
  induction texts generalizing patterns with
  | nil =>
    cases h
    exact le_rfl
  | cons text texts ih =>
    rw [List.mapM_cons] at h
    obtain ⟨pattern, hpattern, h⟩ := bind_eq_ok.1 h
    obtain ⟨more, hmore, h⟩ := bind_eq_ok.1 h
    cases h
    have hfirst := Pattern.cost_le hpattern
    have hrest := ih hmore
    rw [totalCost, Location.size]
    omega

/-- The only other special name is the dot. -/
theorem eq_dot_of_mem_specialNames {pattern : Pattern} {name : String}
    (h : name ∈ specialNames pattern) (hup : ".." ∉ specialNames pattern) : name = "." := by
  have hspecial : name = ".." ∨ name = "." := by
    unfold specialNames at h
    split at h
    · simpa using (List.mem_filter.1 h).1
    · cases h
  rcases hspecial with rfl | rfl
  · exact absurd h hup
  · rfl

theorem reach_eq {path : Path} (h : path.components ≠ [.here]) (name : String) :
    reach path name = path / name :=
  if_neg h

theorem components_ne_of_isAbsolute {path : Path} (h : path.isAbsolute = true) :
    path.components ≠ [.here] := by
  unfold Path.components
  simp [h]

/-! ## 4. One component -/

/-- Something stands where a name leads from a path; a dot or two dots need a directory. -/
def present (workspace : Workspace) (path : Path) (name : String) : Bool :=
  if name = "." ∨ name = ".." then workspace.isDirectory path
  else workspace.contains (reach path name)

/-- Where a component other than `**` leads from a path. -/
def onward (workspace : Workspace) (pattern : Pattern) (path : Path) : List Path :=
  match pattern.literal? with
  | some name => if present workspace path name then [reach path name] else []
  | none =>
    if workspace.isDirectory path then
      (specialNames pattern).map (fun name => path / name) ++
        ((workspace.namesIn path).filter pattern.matchesText).map (reach path)
    else []

/-- Where `**` leads from a path. -/
def deeper (workspace : Workspace) (path : Path) : List (String × Path) :=
  if workspace.isDirectory path then entriesBelow workspace path else []

/-- A pattern is followed component by component. -/
theorem expandFrom_cons (workspace : Workspace) (pattern : Pattern) (patterns : List Pattern)
    (path : Path) : expandFrom workspace (pattern :: patterns) path =
      if pattern.isRecursive then
        (deeper workspace path).flatMap fun found =>
          expandFrom.afterRecursive workspace patterns found.1 found.2
      else (onward workspace pattern path).flatMap (expandFrom workspace patterns) := by
  rw [expandFrom, onward]
  cases hliteral : pattern.literal? with
  | some name =>
    have hplain : ¬ pattern.isRecursive = true := by
      intro hrecursive
      rw [Pattern.literal?, of_decide_eq_true hrecursive] at hliteral
      cases hliteral
    dsimp only
    rw [← present, if_neg hplain]
    cases present workspace path name with
    | true => exact (List.append_nil _).symm
    | false => rfl
  | none =>
    dsimp only
    rw [deeper]
    by_cases hdirectory : workspace.isDirectory path = true
    · rw [if_pos hdirectory, if_pos hdirectory, if_pos hdirectory, List.flatMap_append,
        List.flatMap_map, List.flatMap_map]
    · rw [if_neg hdirectory, if_neg hdirectory, if_neg hdirectory]
      simp

section Alone

variable {tree : FileTree} {spent : Nat} {pattern : Pattern} {own found : Path} {name : String}

/-- A component leads from a path that was reached to others, at its cost. -/
theorem reached_of_mem_onward (hnamed : tree.Named) (hdescends : pattern.Descends)
    (h : tree.Reached spent own) (hfound : found ∈ onward tree.alone pattern own) :
    tree.Reached (spent + pattern.cost) found := by
  have hreach := reach_eq (components_ne_of_isAbsolute h.absolute)
  unfold onward at hfound
  cases hliteral : pattern.literal? with
  | some name =>
    obtain ⟨hslash, hup⟩ := hdescends.literal name hliteral
    rw [hliteral] at hfound
    dsimp only at hfound
    rw [Pattern.cost_of_literal hliteral]
    split at hfound
    · rename_i hpresent
      obtain rfl := List.mem_singleton.1 hfound
      unfold present at hpresent
      rw [hreach] at hpresent ⊢
      split at hpresent
      · rename_i hdot
        obtain rfl := hdot.resolve_right hup
        exact h.dot
      · exact FileTree.Reached.of_contains (h.div hslash hup) hpresent
    · cases hfound
  | none =>
    rw [hliteral] at hfound
    dsimp only at hfound
    rw [Pattern.cost_of_none hliteral]
    split at hfound
    · rcases List.mem_append.1 hfound with hspecial | hentry
      · obtain ⟨name, hname, rfl⟩ := List.mem_map.1 hspecial
        rw [eq_dot_of_mem_specialNames hname hdescends.special]
        exact h.dot
      · obtain ⟨name, hname, rfl⟩ := List.mem_map.1 hentry
        rw [hreach]
        exact (h.of_mem_namesIn hnamed (List.mem_filter.1 hname).1).2.mono (Nat.le_add_right _ _)
    · cases hfound

/-- The entries below a path are reached with it. -/
theorem reached_of_mem_deeper (hnamed : tree.Named) (h : tree.Reached spent own)
    (hfound : (name, found) ∈ deeper tree.alone own) : tree.Reached spent found := by
  unfold deeper entriesBelow at hfound
  split at hfound
  · split at hfound
    · cases hfound
    · rename_i place hlocate
      obtain rfl := FileTree.locate_alone hlocate h.toSpells
      split at hfound
      · obtain ⟨⟨inside, entry⟩, hbelow, hinside⟩ := List.mem_filterMap.1 hfound
        have hnames := hnamed.of_mem hbelow
        have hstands := (FileTree.mem_below.1 hbelow).2
        cases inside with
        | nil => cases hinside
        | cons first more =>
          cases hinside
          rw [reach_eq (components_ne_of_isAbsolute h.absolute)]
          obtain ⟨hspells, hsteps⟩ := h.toSpells.foldl hnames
          refine ⟨hspells, ?_⟩
          rw [List.foldl_cons] at hsteps
          rw [hsteps]
          exact Option.isSome_iff_exists.2 ⟨entry, hstands⟩
      · cases hfound
  · cases hfound

end Alone

section Moved

variable {workspace : Workspace} {base : Path} {place : Location} {inner : FileTree}
  {spent budget : Nat} {pattern : Pattern} {path own : Path}

/-- A component leads from a path where it leads from its own, moved. -/
theorem onward_eq_map (h : workspace.Holds base place inner) (hroom : inner.Roomy base budget)
    (hnamed : inner.Named) (hdescends : pattern.Descends)
    (hmirrors : workspace.Mirrors base place inner path own)
    (hreached : inner.Reached spent own) (hhere : path.components ≠ [.here])
    (hcost : spent + pattern.cost ≤ budget) :
    onward workspace pattern path = (onward inner.alone pattern own).map base.under := by
  have hreach := reach_eq hhere
  have hown := reach_eq (components_ne_of_isAbsolute hreached.absolute)
  unfold onward
  cases hliteral : pattern.literal? with
  | some name =>
    obtain ⟨hslash, hup⟩ := hdescends.literal name hliteral
    rw [Pattern.cost_of_literal hliteral] at hcost
    have hspells := hreached.div hslash hup
    have hshort : (base.under (own / name)).IsShort := by
      refine hroom.isShort hreached.stands ?_
      have hsize := hreached.size
      have hdiv := Path.size_div_le own name
      omega
    have hcontains := (h.mirrors_under hspells.absolute hspells.plain hshort).contains h
    have hnext : reach path name = base.under (own / name) := by
      rw [hreach, hmirrors.div name (Path.isAbsolute_of_not_mem hslash)]
    have hpresent : present workspace path name = present inner.alone own name := by
      rw [present, present, hmirrors.isDirectory h, hnext, hown, hcontains]
    dsimp only
    rw [hpresent, hnext, hown]
    cases present inner.alone own name <;> rfl
  | none =>
    dsimp only
    rw [hmirrors.isDirectory h, hmirrors.namesIn h]
    split
    · rw [List.map_append, List.map_map, List.map_map]
      congr 1
      · refine List.map_congr_left fun name hname => ?_
        obtain rfl := eq_dot_of_mem_specialNames hname hdescends.special
        exact hmirrors.div "." (by decide)
      · refine List.map_congr_left fun name hname => ?_
        have hentry := (hreached.of_mem_namesIn hnamed (List.mem_filter.1 hname).1).1
        rw [Function.comp_apply, hreach, hown]
        exact hmirrors.div name hentry.isAbsolute
    · rfl

/-- The entries below a path are those below its own, moved. -/
theorem deeper_eq_map (h : workspace.Holds base place inner) (hnamed : inner.Named)
    (hmirrors : workspace.Mirrors base place inner path own) (hhere : path.components ≠ [.here]) :
    deeper workspace path =
      (deeper inner.alone own).map fun found => (found.1, base.under found.2) := by
  have hreach := reach_eq hhere
  have hown := reach_eq (components_ne_of_isAbsolute hmirrors.absolute)
  unfold deeper
  rw [hmirrors.isDirectory h]
  split
  · unfold entriesBelow
    rw [hmirrors.locate]
    cases inner.alone.locate own with
    | error error => rfl
    | ok inside =>
      have htree : inner.alone.tree = inner := rfl
      simp only [Except.map]
      rw [h.find?, h.below_append, htree]
      split
      · rw [List.map_filterMap]
        refine List.filterMap_congr fun found hfound => ?_
        obtain ⟨names, entry⟩ := found
        have hnames := hnamed.of_mem hfound
        cases names with
        | nil => rfl
        | cons first more =>
          obtain ⟨hfirst, hmore⟩ := List.forall_mem_cons.1 hnames
          simp only [Option.map_some]
          rw [hreach, hown, hmirrors.foldl hfirst.isAbsolute hmore]
      · rfl
  · rfl

end Moved

/-! ## 5. All components -/

/-- What a pattern leads to was reached, at the cost of its components. -/
theorem reached_of_mem_expandFrom {tree : FileTree} (hnamed : tree.Named) {patterns : List Pattern}
    (hdescends : ∀ pattern ∈ patterns, pattern.Descends) {spent : Nat} {own found : Path}
    (h : tree.Reached spent own) :
    (found ∈ expandFrom tree.alone patterns own → tree.Reached (spent + totalCost patterns) found) ∧
      ∀ name, found ∈ expandFrom.afterRecursive tree.alone patterns name own →
        tree.Reached (spent + totalCost patterns) found := by
  induction patterns generalizing spent own with
  | nil =>
    have hsame : found ∈ [own] → tree.Reached (spent + totalCost []) found := by
      intro hfound
      obtain rfl := List.mem_singleton.1 hfound
      exact h
    exact ⟨hsame, fun _ => hsame⟩
  | cons pattern patterns ih =>
    obtain ⟨hpattern, hpatterns⟩ := List.forall_mem_cons.1 hdescends
    have hless : spent + totalCost patterns ≤ spent + totalCost (pattern :: patterns) := by
      rw [totalCost]
      omega
    constructor
    · intro hfound
      rw [expandFrom_cons] at hfound
      split at hfound
      · obtain ⟨⟨name, next⟩, hnext, hfound⟩ := List.mem_flatMap.1 hfound
        have hreached := reached_of_mem_deeper hnamed h hnext
        exact ((ih hpatterns hreached).2 name hfound).mono hless
      · obtain ⟨next, hnext, hfound⟩ := List.mem_flatMap.1 hfound
        have hreached := reached_of_mem_onward hnamed hpattern h hnext
        refine ((ih hpatterns hreached).1 hfound).mono ?_
        rw [totalCost, Nat.add_assoc]
    · intro name hfound
      unfold expandFrom.afterRecursive at hfound
      split at hfound
      · exact ((ih hpatterns h).2 name hfound).mono hless
      · split at hfound
        · exact ((ih hpatterns h).1 hfound).mono hless
        · cases hfound

section Moved

variable {workspace : Workspace} {base : Path} {place : Location} {inner : FileTree}
  {spent budget : Nat} {patterns : List Pattern} {path own : Path}

/-- A pattern leads from a path where it leads from its own, moved. -/
theorem expandFrom_eq_map (h : workspace.Holds base place inner) (hroom : inner.Roomy base budget)
    (hnamed : inner.Named)
    (hbase : ∀ path : Path, path.isAbsolute = true → (base.under path).components ≠ [.here])
    (hdescends : ∀ pattern ∈ patterns, pattern.Descends)
    (hmirrors : workspace.Mirrors base place inner path own) (hreached : inner.Reached spent own)
    (hhere : path.components ≠ [.here]) (hcost : spent + totalCost patterns ≤ budget) :
    (path = base.under own ∨ patterns ≠ [] → expandFrom workspace patterns path =
      (expandFrom inner.alone patterns own).map base.under) ∧
    (path = base.under own → ∀ name, expandFrom.afterRecursive workspace patterns name path =
      (expandFrom.afterRecursive inner.alone patterns name own).map base.under) := by
  induction patterns generalizing spent path own with
  | nil =>
    constructor
    · intro hmoved
      rw [hmoved.resolve_right fun hne => hne rfl]
      rfl
    · intro hmoved name
      rw [hmoved]
      rfl
  | cons pattern patterns ih =>
    obtain ⟨hpattern, hpatterns⟩ := List.forall_mem_cons.1 hdescends
    rw [totalCost] at hcost
    -- from any path that the first component leads to, the others lead on
    have hrest {next : Path} (hnext : inner.Reached (spent + pattern.cost) next) :=
      ih hpatterns (hnext.mirrors h hroom (by omega)) hnext (hbase next hnext.absolute) (by omega)
    constructor
    · intro _
      rw [expandFrom_cons, expandFrom_cons]
      split
      · rw [deeper_eq_map h hnamed hmirrors hhere, List.flatMap_map, List.map_flatMap]
        refine List.flatMap_congr fun found hfound => ?_
        have hnext := (reached_of_mem_deeper hnamed hreached hfound).mono
          (Nat.le_add_right spent pattern.cost)
        exact (hrest hnext).2 rfl found.1
      · rw [onward_eq_map h hroom hnamed hpattern hmirrors hreached hhere (by omega),
          List.flatMap_map, List.map_flatMap]
        refine List.flatMap_congr fun found hfound => ?_
        have hnext := reached_of_mem_onward hnamed hpattern hreached hfound
        exact (hrest hnext).1 (.inl rfl)
    · intro hmoved name
      have hsame := hrest (hreached.mono (Nat.le_add_right spent pattern.cost))
      rw [hmoved]
      unfold expandFrom.afterRecursive
      split
      · exact hsame.2 rfl name
      · split
        · exact hsame.1 (.inl rfl)
        · rfl

end Moved

end Glob

end LocaleCatalog
