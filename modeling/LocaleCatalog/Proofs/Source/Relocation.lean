import Mathlib.Data.List.Sort
import LocaleCatalog.Proofs.Command.Gate
import LocaleCatalog.Proofs.Source.Roots

/-!
# Scanning does not depend on where the project lies, but for the ignored patterns

A scan is a walk below its roots, a choice among the files, and an order. The walk and the order do
not tell at which base a tree lies. The choice does: an ignored pattern is matched with the whole
spelling of a path, and so with the base as well.

* `Source.paths_scan`: what is found is what is found in the tree by itself, moved, but for the files
  that the ignored patterns match where they are moved to;
* `Source.isAlike_of_avoids`: a pattern for a component by its name does not tell apart bases that
  have no component of this name;
* `Source.paths_scan_eq_nil`: below a base that has one, nothing is found at all;
* `Source.scan_relocates`: a tree has the same files at two places that the ignored patterns do not
  tell apart.
-/

namespace LocaleCatalog.Source

variable {workspace : Workspace} {base : Path} {place : Location} {inner : FileTree}
  {filter : Filter}

/-! ## 1. Files in their order -/

/-- The files found, by their components. -/
def collect (found : List Path) : FileSet :=
  found.foldl (fun files path => files.insertIfNew path.components path) ∅

/-- Of all spellings of a file the first is kept. -/
theorem getElem?_foldl (found : List Path) (files : FileSet) (key : List Component) :
    (found.foldl (fun files path => files.insertIfNew path.components path) files)[key]? =
      files[key]?.or (found.find? fun path => path.components = key) := by
  induction found generalizing files with
  | nil => simp
  | cons first found ih =>
    rw [List.foldl_cons, ih, Std.ExtTreeMap.getElem?_insertIfNew, List.find?_cons]
    by_cases hkey : first.components = key
    · subst hkey
      by_cases hmem : first.components ∈ files
      · rw [if_neg fun hboth => hboth.2 hmem, Std.ExtTreeMap.getElem?_eq_some_getElem hmem]
        rfl
      · rw [if_pos ⟨Std.ReflOrd.compare_self, hmem⟩, Std.ExtTreeMap.getElem?_eq_none hmem]
        simp
    · rw [if_neg fun hboth => hkey (Std.compare_eq_iff_eq.1 hboth.1)]
      simp [hkey]

theorem getElem?_collect (found : List Path) (key : List Component) :
    (collect found)[key]? = found.find? fun other => other.components = key := by
  rw [collect, getElem?_foldl]
  simp

theorem mem_paths_collect {found : List Path} {path : Path} : path ∈ (collect found).paths ↔
    found.find? (fun other => other.components = path.components) = some path := by
  have hget := getElem?_collect found
  unfold FileSet.paths
  rw [List.mem_map]
  constructor
  · intro h
    obtain ⟨⟨key, other⟩, hmem, rfl⟩ := h
    have hfound := Std.ExtTreeMap.mem_toList_iff_getElem?_eq_some.1 hmem
    rw [hget] at hfound
    have hkey : other.components = key := by simpa using List.find?_some hfound
    rw [hkey]
    exact hfound
  · intro h
    rw [← hget] at h
    exact ⟨(path.components, path), Std.ExtTreeMap.mem_toList_iff_getElem?_eq_some.2 h, rfl⟩

/-- The first path comes before the second. -/
def Before (first second : Path) : Prop :=
  compare first.components second.components = .lt

instance : Std.Irrefl Before where
  irrefl path h := by
    have hself : compare path.components path.components = .eq := Std.ReflOrd.compare_self
    rw [Before, hself] at h
    cases h

instance : Std.Antisymm Before where
  antisymm _ _ h h' := absurd h' (Std.OrientedCmp.not_lt_of_lt h)

theorem pairwise_paths_collect (found : List Path) : (collect found).paths.Pairwise Before := by
  have h := ordered_paths_foldl found
  rw [List.pairwise_map] at h
  exact h

/-- Moving the files moves the list of them. -/
theorem paths_collect_map (hne : base.text ≠ "") {found : List Path}
    (habs : ∀ path ∈ found, path.isAbsolute = true) :
    (collect (found.map base.under)).paths = (collect found).paths.map base.under := by
  have hof {path : Path} (hpath : path ∈ (collect found).paths) : path ∈ found :=
    List.mem_of_find?_eq_some (mem_paths_collect.1 hpath)
  have hfind {path : Path} (hpath : path ∈ found) :
      found.find? ((fun other => other.components = (base.under path).components) ∘ base.under) =
        found.find? fun other => other.components = path.components := by
    rw [← List.head?_filter, ← List.head?_filter]
    refine congrArg _ (List.filter_congr fun other hother => decide_eq_decide.2 ?_)
    rw [← Std.compare_eq_iff_eq, Path.compare_components_under hne (habs other hother)
      (habs path hpath), Std.compare_eq_iff_eq]
  have hordered : ((collect found).paths.map base.under).Pairwise Before := by
    rw [List.pairwise_map]
    refine (pairwise_paths_collect found).imp_of_mem fun hfirst hsecond h => ?_
    rw [Before, Path.compare_components_under hne (habs _ (hof hfirst)) (habs _ (hof hsecond))]
    exact h
  -- both lists are in order, so it is enough that they have the same members
  refine (pairwise_paths_collect _).eq_of_mem_iff hordered fun moved => ?_
  rw [mem_paths_collect, List.find?_map, List.mem_map]
  constructor
  · intro h
    obtain ⟨path, hpath, rfl⟩ := Option.map_eq_some_iff.1 h
    rw [hfind (List.mem_of_find?_eq_some hpath)] at hpath
    exact ⟨path, mem_paths_collect.2 hpath, rfl⟩
  · intro h
    obtain ⟨path, hpath, rfl⟩ := h
    rw [hfind (hof hpath), mem_paths_collect.1 hpath]
    rfl

/-! ## 2. Ignores -/

/-- A literal ignore hides the same below the base as in the tree by itself; a pattern is held
    against the whole path, base and all. -/
theorem isIgnored_under (h : workspace.Holds base place inner) (hinward : filter.IsInward)
    {path : Path} (habs : path.isAbsolute = true) :
    filter.isIgnored base (base.under path) =
      ((filter.ignoredPaths ⟨"/"⟩).any (·.isStartOf path) ||
        filter.ignoredPatterns.any (·.matchesText (base.under path).text)) := by
  have hpaths : (filter.ignoredPaths base).any (·.isStartOf (base.under path)) =
      (filter.ignoredPaths ⟨"/"⟩).any (·.isStartOf path) := by
    unfold Filter.ignoredPaths
    rw [List.any_map, List.any_map, Bool.eq_iff_iff, List.any_eq_true, List.any_eq_true]
    refine exists_congr fun text => and_congr_right fun htext => ?_
    obtain ⟨hmem, hliteral⟩ := List.mem_filter.1 htext
    have hrelative := hinward.ignores text hmem (by simpa using hliteral)
    rw [Function.comp_apply, Function.comp_apply, h.mirrors_base.div text hrelative,
      Path.isStartOf_under h.base_ne (Path.isAbsolute_div (by decide) _) habs]
  rw [Filter.isIgnored, hpaths]

/-- The ignored patterns match a file alike from either base. -/
def Filter.IsAlike (filter : Filter) (base other path : Path) : Prop :=
  filter.ignoredPatterns.any (·.matchesText (base.under path).text) =
    filter.ignoredPatterns.any (·.matchesText (other.under path).text)

/-- The files of a tree that a scan finds from a base, as paths of the tree by itself. -/
def foundFrom (inner : FileTree) (base : Path) (filter : Filter) : List Path :=
  (candidates inner.alone ⟨"/"⟩ filter).filter fun path =>
    !((filter.ignoredPaths ⟨"/"⟩).any (·.isStartOf path) ||
      filter.ignoredPatterns.any (·.matchesText (base.under path).text)) && filter.isSource path

/-- A scan finds the files of the tree by itself, moved, less those that its ignored patterns match
    where they are moved to. -/
theorem paths_scan (h : workspace.Holds base place inner) (hnamed : inner.Named)
    (hinward : filter.IsInward) (hsuits : filter.Suits base inner) :
    (scan workspace base filter).files.paths =
      (collect (foundFrom inner base filter)).paths.map base.under := by
  have habs {path : Path} (hpath : path ∈ candidates inner.alone ⟨"/"⟩ filter) :=
    spells_of_mem_candidates hnamed hinward hpath
  have hfound : (candidates workspace base filter).filter (fun path =>
      !filter.isIgnored base path && filter.isSource path) =
        (foundFrom inner base filter).map base.under := by
    rw [candidates_eq_map h hnamed hinward hsuits, List.filter_map, foundFrom]
    refine congrArg _ (List.filter_congr fun path hpath => ?_)
    obtain ⟨hroot, hsteps⟩ := habs hpath
    rw [Function.comp_apply, isIgnored_under h hinward hroot, Filter.isSource, Filter.isSource,
      Path.extension?_under h.base_ne hroot hsteps]
  show (collect ((candidates workspace base filter).filter _)).paths = _
  rw [hfound]
  exact paths_collect_map h.base_ne fun path hpath => (habs (List.mem_filter.1 hpath).1).1

/-! ## 3. Ignored components -/

/-- No component of the base is called like this. -/
def Avoids (base : Path) (name : String) : Prop :=
  name.toList ∉ Path.pieces base.front

instance (base : Path) (name : String) : Decidable (Avoids base name) :=
  inferInstanceAs (Decidable (_ ∉ _))

/-- The pattern for a component matches a moved path if the base has the component, or the path
    itself. -/
theorem matchesText_under {path : Path} {name : String} {pattern : Glob.Pattern}
    (hname : Path.IsName name) (hbare : Glob.IsBare name.toList)
    (hpattern : Glob.Pattern.parse (Glob.component name) = .ok pattern)
    (habs : path.isAbsolute = true) :
    pattern.matchesText (base.under path).text = true ↔
      ¬ Avoids base name ∨ pattern.matchesText path.text = true := by
  obtain ⟨cs, hcs⟩ := Path.exists_of_isAbsolute habs
  have hne := Path.pieces_ne_nil cs
  have hpieces : Path.pieces ('/' :: cs) = [] :: Path.pieces cs := by simp [Path.pieces]
  rw [Glob.matchesText_component hbare hname.1 hpattern,
    Glob.matchesText_component hbare hname.1 hpattern, Path.toList_under, hcs,
    Path.pieces_append_slash, List.dropLast_append_of_ne_nil hne, List.mem_append, hpieces,
    List.dropLast_cons_of_ne_nil hne, List.mem_cons, or_iff_right hname.ne_nil, Avoids, not_not]

/-- Ignored patterns that ask for components by name do not tell places apart that have none of
    them. -/
theorem isAlike_of_avoids {other path : Path} (habs : path.isAbsolute = true)
    (hnames : ∀ text ∈ filter.ignores, isPattern text = true → ∃ name, text = Glob.component name ∧
      Path.IsName name ∧ Glob.IsBare name.toList ∧ Avoids base name ∧ Avoids other name) :
    filter.IsAlike base other path := by
  unfold Filter.IsAlike
  rw [Bool.eq_iff_iff, List.any_eq_true, List.any_eq_true]
  refine exists_congr fun pattern => and_congr_right fun hpattern => ?_
  obtain ⟨text, htext, hparse⟩ := List.mem_filterMap.1 hpattern
  obtain ⟨hmem, hisPattern⟩ := List.mem_filter.1 htext
  obtain ⟨name, rfl, hname, hbare, hbase, hother⟩ := hnames text hmem hisPattern
  have hread := toOption_eq_some_iff.1 hparse
  rw [matchesText_under hname hbare hread habs, matchesText_under hname hbare hread habs,
    or_iff_right (not_not_intro hbase), or_iff_right (not_not_intro hother)]

/-- Nothing is found below a base that has an ignored component. -/
theorem paths_scan_eq_nil (h : workspace.Holds base place inner) (hnamed : inner.Named)
    (hinward : filter.IsInward) (hsuits : filter.Suits base inner) {name : String}
    (hname : Path.IsName name) (hbare : Glob.IsBare name.toList)
    (hmem : Glob.component name ∈ filter.ignores) (hbase : ¬ Avoids base name) :
    (scan workspace base filter).files.paths = [] := by
  have hnone : foundFrom inner base filter = [] := by
    refine List.filter_eq_nil_iff.2 fun path hpath => ?_
    have habs := (spells_of_mem_candidates hnamed hinward hpath).1
    have hparse := Glob.parse_component hbare
    have hisPattern : isPattern (Glob.component name) = true := by
      simp [isPattern, Glob.component]
    have hpattern : _ ∈ filter.ignoredPatterns :=
      List.mem_filterMap.2 ⟨_, List.mem_filter.2 ⟨hmem, hisPattern⟩, by rw [hparse]; rfl⟩
    have hany : filter.ignoredPatterns.any (·.matchesText (base.under path).text) = true :=
      List.any_eq_true.2
        ⟨_, hpattern, (matchesText_under hname hbare hparse habs).2 (.inl hbase)⟩
    rw [hany, Bool.or_true]
    simp
  rw [paths_scan h hnamed hinward hsuits, hnone]
  rfl

/-! ## 4. Two places -/

/-- Scanning finds the same files of a tree wherever it lies, as long as the ignored patterns do not
    tell the places apart. -/
theorem scan_relocates {first second : Workspace} {base other : Path} {place place' : Location}
    {inner : FileTree} {filter : Filter} (hfirst : first.Holds base place inner)
    (hsecond : second.Holds other place' inner) (hnamed : inner.Named) (hinward : filter.IsInward)
    (hbase : filter.Suits base inner) (hother : filter.Suits other inner)
    (halike : ∀ path ∈ candidates inner.alone ⟨"/"⟩ filter, filter.IsAlike base other path) :
    ∃ found : List Path, (∀ path ∈ found, path.isAbsolute = true) ∧
      (scan first base filter).files.paths = found.map base.under ∧
      (scan second other filter).files.paths = found.map other.under ∧
      (scan first base filter).skipped = (scan second other filter).skipped := by
  have hsame : foundFrom inner base filter = foundFrom inner other filter := by
    refine List.filter_congr fun path hpath => ?_
    rw [halike path hpath]
  refine ⟨(collect (foundFrom inner base filter)).paths, fun path hpath => ?_,
    paths_scan hfirst hnamed hinward hbase, ?_, ?_⟩
  · have hfound := List.mem_of_find?_eq_some (mem_paths_collect.1 hpath)
    exact (spells_of_mem_candidates hnamed hinward (List.mem_filter.1 hfound).1).1
  · rw [hsame]
    exact paths_scan hsecond hnamed hinward hother
  · rw [skipped_eq hfirst hnamed hinward hbase, skipped_eq hsecond hnamed hinward hother]

/-- A project with sources and what was built from them, in a directory. -/
def projectIn (place : Location) : Workspace where
  tree := ⟨.ofList (place.inits.tail.map (fun above => (above, Entry.directory)) ++
    [(place ++ ["src"], Entry.directory), (place ++ ["src", "a.ts"], Entry.file .empty),
      (place ++ ["build"], Entry.directory), (place ++ ["build", "a.ts"], Entry.file .empty)]),
    fun _ => none⟩
  current := []

/-- What is built is ignored, wherever it lies. -/
def builtIgnored : Filter :=
  ⟨["s*", "build"], [Glob.component "build"], ["ts"]⟩

/-- A directory at the root, and one in the directory that paths start from. -/
theorem holds_projectIn : (projectIn ["q", "r"]).Holds ⟨"/q/r"⟩ ["q", "r"] (projectIn []).tree ∧
    (projectIn ["p"]).Holds ⟨"p"⟩ ["p"] (projectIn []).tree :=
  ⟨⟨Workspace.locate_eq_ok.2 ⟨by decide, by rfl⟩, by decide +kernel, by decide +kernel⟩,
    ⟨Workspace.locate_eq_ok.2 ⟨by decide, by rfl⟩, by decide +kernel, by decide +kernel⟩⟩

theorem scan_relocates_sample : ∃ found : List Path,
    (scan (projectIn ["q", "r"]) ⟨"/q/r"⟩ builtIgnored).files.paths =
      found.map (Path.under ⟨"/q/r"⟩) ∧
    (scan (projectIn ["p"]) ⟨"p"⟩ builtIgnored).files.paths = found.map (Path.under ⟨"p"⟩) := by
  have hnamed : (projectIn []).tree.Named := by decide +kernel
  have hinward : builtIgnored.IsInward :=
    ⟨by decide, by decide, by decide +kernel, by decide⟩
  have hdeep : Glob.Tidy ⟨"/q/r"⟩ ["q", "r"] :=
    @Glob.Tidy.div ⟨"/q"⟩ ["q"] "r" (@Glob.Tidy.div ⟨"/"⟩ [] "q" .root (by decide) (by decide))
      (by decide) (by decide)
  have hflat : Glob.Tidy ⟨"p"⟩ ["p"] := .start (by decide) (by decide)
  obtain ⟨found, -, hfirst, hsecond, -⟩ := scan_relocates holds_projectIn.1 holds_projectIn.2 hnamed
    hinward ⟨by decide +kernel, fun _ => ⟨_, _, hdeep, rfl⟩⟩
    ⟨by decide +kernel, fun _ => ⟨_, _, hflat, rfl⟩⟩ fun path hpath =>
      isAlike_of_avoids (spells_of_mem_candidates hnamed hinward hpath).1
        (List.forall_mem_singleton.2 fun _ =>
          ⟨"build", rfl, by decide, by decide, by decide, by decide⟩)
  exact ⟨found, hfirst, hsecond⟩

/-- A directory with one source file in it. -/
def sourceIn (place : Location) : Workspace where
  tree := ⟨.ofList (place.inits.tail.map (fun above => (above, Entry.directory)) ++
    [(place ++ ["a.ts"], Entry.file .empty)]), fun _ => none⟩
  current := []

/-- All sources but those below a directory called `build`. -/
def outsideBuild : Filter :=
  ⟨[], [Glob.component "build"], ["ts"]⟩

theorem holds_sourceIn :
    (sourceIn ["build", "app"]).Holds ⟨"build/app"⟩ ["build", "app"] (sourceIn []).tree ∧
      (sourceIn ["app"]).Holds ⟨"app"⟩ ["app"] (sourceIn []).tree :=
  ⟨⟨Workspace.locate_eq_ok.2 ⟨by decide, by rfl⟩, by decide +kernel, by decide +kernel⟩,
    ⟨Workspace.locate_eq_ok.2 ⟨by decide, by rfl⟩, by decide +kernel, by decide +kernel⟩⟩

/-- A pattern that ignores what is built hides a file wherever a directory above the base is called
    like the one for what is built, though no component below the base is. -/
theorem hidden_below_build : ¬ ∀ (first second : Workspace) (base other : Path)
    (place place' : Location) (inner : FileTree) (filter : Filter),
    first.Holds base place inner → second.Holds other place' inner → inner.Named →
    base.IsPlain → other.IsPlain →
    (∀ text ∈ filter.includes ++ filter.ignores,
      (⟨text⟩ : Path).isAbsolute = false ∧ (⟨text⟩ : Path).IsPlain ∧
        (isPattern text = true → (Glob.Pattern.parse text).isOk = true)) →
    ∃ found : List Path, (scan first base filter).files.paths = found.map base.under ∧
      (scan second other filter).files.paths = found.map other.under := by
  intro h
  have hnamed : (sourceIn []).tree.Named := by decide +kernel
  obtain ⟨found, hbuilt, hsource⟩ := h _ _ _ _ _ _ _ outsideBuild
    holds_sourceIn.1 holds_sourceIn.2 hnamed (by decide) (by decide) (by decide +kernel)
  have hbase : Glob.Tidy ⟨"build/app"⟩ ["build", "app"] :=
    @Glob.Tidy.div ⟨"build"⟩ ["build"] "app" (.start (by decide) (by decide)) (by decide) (by decide)
  have hnone : (scan (sourceIn ["build", "app"]) ⟨"build/app"⟩ outsideBuild).files.paths = [] :=
    paths_scan_eq_nil holds_sourceIn.1 hnamed
      ⟨by decide, by decide, by decide +kernel, by decide⟩
      ⟨by decide +kernel, fun _ => ⟨_, _, hbase, rfl⟩⟩ (by decide : Path.IsName "build") (by decide)
      (List.mem_singleton_self _) (by decide)
  have hsome : (scan (sourceIn ["app"]) ⟨"app"⟩ outsideBuild).files.paths = [⟨"app/a.ts"⟩] := by
    decide +kernel
  rw [hnone, eq_comm, List.map_eq_nil_iff] at hbuilt
  rw [hsome, hbuilt] at hsource
  cases hsource

end LocaleCatalog.Source
