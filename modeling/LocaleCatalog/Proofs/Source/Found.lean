import LocaleCatalog.Proofs.Source.Relocation

/-!
# Which files a scan finds

A scan walks below its roots, drops what is ignored, and keeps one spelling of each file. What it
finds can be said without any of these steps:

* `Path.HasExtension`: the last name of a path, taken apart at its last dot
  (`Path.extension?_eq_some_iff`);
* `Source.Filter.IsRoot` and `Source.Filter.Lets`: where files are looked for, and which of them the
  filter lets through (`Source.mem_scanRoots_iff`, `Source.lets_iff`);
* `Source.Findable`: the path of a file below a root that the filter lets through. `Source.scanned`
  says that these are what a scan finds. So only the members of the lists of a filter count,
  includes that overlap add up, and a literal ignore hides all paths that start with it.
-/

namespace LocaleCatalog

/-! ## 1. Extensions -/

namespace Path

/-- The path ends in a name that has the extension behind its last dot, and something before it. -/
def HasExtension (path : Path) (extension : String) : Prop :=
  ∃ (name : String) (stem : List Char), path.components.getLast? = some (.name name) ∧
    name.toList = stem ++ '.' :: extension.toList ∧ stem ≠ [] ∧ '.' ∉ extension.toList

theorem extensionOf?_eq_some_iff {name extension : String} :
    extensionOf? name = some extension ↔ ∃ stem : List Char,
      name.toList = stem ++ '.' :: extension.toList ∧ stem ≠ [] ∧ '.' ∉ extension.toList := by
  unfold extensionOf?
  dsimp only
  constructor
  · intro h
    split at h
    · rename_i dot last before hdrop
      cases h
      have hdot : dot = '.' := by
        have hhead := List.head?_dropWhile_not (· ≠ '.') name.toList.reverse
        rw [hdrop] at hhead
        simpa using hhead
      have hsplit := List.takeWhile_append_dropWhile (p := (· ≠ '.')) (l := name.toList.reverse)
      rw [hdrop, hdot] at hsplit
      have hname := congrArg List.reverse hsplit
      rw [List.reverse_reverse] at hname
      refine ⟨(last :: before).reverse, hname.symm.trans ?_, by simp, ?_⟩
      · rw [String.toList_ofList, List.reverse_append, List.reverse_cons, List.append_assoc]
        rfl
      · rw [String.toList_ofList, List.mem_reverse]
        intro hmem
        exact absurd (List.mem_takeWhile_imp hmem) (by simp)
    · cases h
  · intro h
    obtain ⟨stem, hname, hstem, hdot⟩ := h
    have hbehind : ∀ c ∈ extension.toList.reverse, decide (c ≠ '.') = true := by
      intro c hc
      rw [decide_eq_true_eq]
      rintro rfl
      exact hdot (List.mem_reverse.1 hc)
    have hbackwards : name.toList.reverse = extension.toList.reverse ++ '.' :: stem.reverse := by
      rw [hname]
      simp
    obtain ⟨last, before, hlast⟩ := List.exists_cons_of_ne_nil (List.reverse_ne_nil_iff.2 hstem)
    rw [hbackwards, List.dropWhile_append_of_pos hbehind, List.takeWhile_append_of_pos hbehind,
      hlast]
    simp

theorem extension?_eq_some_iff {path : Path} {extension : String} :
    path.extension? = some extension ↔ path.HasExtension extension := by
  unfold extension? fileName? HasExtension
  rw [Option.bind_eq_some_iff]
  constructor
  · intro h
    obtain ⟨name, hname, hextension⟩ := h
    split at hname
    · rename_i last hlast
      cases hname
      obtain ⟨stem, hstem⟩ := extensionOf?_eq_some_iff.1 hextension
      exact ⟨name, stem, hlast, hstem⟩
    · cases hname
  · intro h
    obtain ⟨name, stem, hlast, hstem⟩ := h
    rw [hlast]
    exact ⟨name, rfl, extensionOf?_eq_some_iff.2 ⟨stem, hstem⟩⟩

end Path

namespace Source

variable {workspace : Workspace} {base root path : Path} {filter : Filter}

/-! ## 2. Roots -/

/-- Files are looked for at the path: it is the base, where there are no includes, a literal include
    that names something, or a directory that an include with wildcards names. -/
inductive Filter.IsRoot (filter : Filter) (workspace : Workspace) (base : Path) : Path → Prop
  | base (hnone : filter.includes = []) : filter.IsRoot workspace base base
  | literal {item : String} (hitem : item ∈ filter.includes) (hliteral : isPattern item = false)
      (hthere : workspace.contains (base / item) = true) :
      filter.IsRoot workspace base (base / item)
  | pattern {item : String} {found : List Path} {root : Path} (hitem : item ∈ filter.includes)
      (hpattern : isPattern item = true)
      (hfound : Glob.directories workspace (base / item) = .ok found) (hroot : root ∈ found) :
      filter.IsRoot workspace base root

theorem mem_scanRoots_iff : root ∈ scanRoots workspace base filter ↔
    filter.IsRoot workspace base root := by
  unfold scanRoots
  constructor
  · intro h
    split at h
    · rename_i hnone
      obtain rfl := List.mem_singleton.1 h
      exact .base hnone
    · obtain ⟨item, hitem, h⟩ := List.mem_flatMap.1 h
      unfold rootsOf at h
      split at h
      · rename_i hpattern
        split at h
        · rename_i found hfound
          exact .pattern hitem hpattern hfound h
        · cases h
      · rename_i hliteral
        split at h
        · rename_i hthere
          obtain rfl := List.mem_singleton.1 h
          exact .literal hitem (by simpa using hliteral) hthere
        · cases h
  · intro h
    cases h with
    | base hnone =>
      rw [if_pos hnone]
      exact List.mem_singleton_self _
    | literal hitem hliteral hthere =>
      rw [if_neg (List.ne_nil_of_mem hitem)]
      refine List.mem_flatMap.2 ⟨_, hitem, ?_⟩
      unfold rootsOf
      rw [if_neg (by simp [hliteral]), if_pos hthere]
      exact List.mem_singleton_self _
    | pattern hitem hpattern hfound hroot =>
      rw [if_neg (List.ne_nil_of_mem hitem)]
      refine List.mem_flatMap.2 ⟨_, hitem, ?_⟩
      rw [rootsOf_of_isPattern hpattern, hfound]
      exact hroot

/-! ## 3. Filters -/

/-- The filter lets a file through: it has a listed extension, and neither does it start with a
    literal ignore nor does a pattern that can be read match its spelling. -/
structure Filter.Lets (filter : Filter) (base path : Path) : Prop where
  extension : ∃ extension ∈ filter.extensions, path.HasExtension extension
  literal : ∀ text ∈ filter.ignores, isPattern text = false →
    ¬ (base / text).components <+: path.components
  pattern : ∀ text ∈ filter.ignores, isPattern text = true →
    ∀ pattern, Glob.Pattern.parse text = .ok pattern → pattern.matchesText path.text = false

theorem isSource_iff : filter.isSource path = true ↔
    ∃ extension ∈ filter.extensions, path.HasExtension extension := by
  unfold Filter.isSource
  simp only [← Path.extension?_eq_some_iff]
  cases path.extension? with
  | none => simp
  | some extension => simp

theorem isIgnored_eq_false_iff : filter.isIgnored base path = false ↔
    (∀ text ∈ filter.ignores, isPattern text = false →
      ¬ (base / text).components <+: path.components) ∧
    ∀ text ∈ filter.ignores, isPattern text = true →
      ∀ pattern, Glob.Pattern.parse text = .ok pattern → pattern.matchesText path.text = false := by
  unfold Filter.isIgnored Filter.ignoredPaths Filter.ignoredPatterns
  rw [Bool.or_eq_false_iff, List.any_eq_false, List.any_eq_false, List.forall_mem_map]
  refine and_congr ⟨fun h text hmem hliteral => ?_, fun h text htext => ?_⟩
    ⟨fun h text hmem hpattern pattern hparse => ?_, fun h pattern hmem => ?_⟩
  · have hnot := h text (List.mem_filter.2 ⟨hmem, by simp [hliteral]⟩)
    rwa [Path.isStartOf, List.isPrefixOf_iff_prefix] at hnot
  · obtain ⟨hmem, hliteral⟩ := List.mem_filter.1 htext
    rw [Path.isStartOf, List.isPrefixOf_iff_prefix]
    exact h text hmem (by simpa using hliteral)
  · have hnot := h pattern (List.mem_filterMap.2
      ⟨text, List.mem_filter.2 ⟨hmem, hpattern⟩, by rw [hparse]; rfl⟩)
    exact Bool.eq_false_iff.2 hnot
  · obtain ⟨text, htext, hparse⟩ := List.mem_filterMap.1 hmem
    obtain ⟨hmem, hpattern⟩ := List.mem_filter.1 htext
    exact Bool.eq_false_iff.1 (h text hmem hpattern pattern (toOption_eq_some_iff.1 hparse))

theorem lets_iff : (!filter.isIgnored base path && filter.isSource path) = true ↔
    filter.Lets base path := by
  rw [Bool.and_eq_true, Bool.not_eq_true', isIgnored_eq_false_iff, isSource_iff]
  exact ⟨fun h => ⟨h.2, h.1.1, h.1.2⟩, fun h => ⟨⟨h.literal, h.pattern⟩, h.extension⟩⟩

/-! ## 4. Scans -/

/-- The path is one under which a file of the scan can be found. -/
structure Findable (workspace : Workspace) (base : Path) (filter : Filter) (path : Path) :
    Prop where
  stands : ∃ root, filter.IsRoot workspace base root ∧ StandsUnder workspace root path
  lets : filter.Lets base path

/-- What a scan finds is what can be found. -/
theorem mem_files_iff : path.components ∈ (scan workspace base filter).files ↔
    ∃ found, found.components = path.components ∧ Findable workspace base filter found := by
  show path.components ∈ collect ((candidates workspace base filter).filter _) ↔ _
  rw [Std.ExtTreeMap.mem_iff_isSome_getElem?, getElem?_collect, List.find?_isSome]
  refine exists_congr fun found => ?_
  rw [List.mem_filter, lets_iff, candidates, List.mem_flatMap, decide_eq_true_eq, and_comm]
  refine and_congr_right fun _ => ?_
  simp only [mem_scanRoots_iff, mem_filesUnder_iff]
  exact ⟨fun h => ⟨h.1, h.2⟩, fun h => ⟨h.stands, h.lets⟩⟩

/-- The spellings that are kept are such that the file can be found under them. -/
theorem findable_of_mem_paths (h : path ∈ (scan workspace base filter).files.paths) :
    Findable workspace base filter path := by
  have hmem := List.mem_of_find?_eq_some (mem_paths_collect.1 h)
  obtain ⟨hcandidate, hlets⟩ := List.mem_filter.1 hmem
  obtain ⟨root, hroot, hstands⟩ := List.mem_flatMap.1 hcandidate
  exact ⟨⟨root, mem_scanRoots_iff.1 hroot, mem_filesUnder_iff.1 hstands⟩, lets_iff.1 hlets⟩

/-! ## 5. Other filters -/

/-- The lists of two filters have the same members. -/
structure Filter.Alike (first second : Filter) : Prop where
  includes : ∀ item, item ∈ first.includes ↔ item ∈ second.includes
  ignores : ∀ text, text ∈ first.ignores ↔ text ∈ second.ignores
  extensions : ∀ extension, extension ∈ first.extensions ↔ extension ∈ second.extensions

/-- The filter with more includes behind its own. -/
def Filter.including (filter : Filter) (more : List String) : Filter :=
  { filter with includes := filter.includes ++ more }

/-- The filter with other includes. -/
def Filter.onlyIncluding (filter : Filter) (items : List String) : Filter :=
  { filter with includes := items }

variable {first second : Filter}

/-- More includes name more roots, unless the base is all that is searched. -/
theorem Filter.IsRoot.mono (h : first.IsRoot workspace base root)
    (hincludes : ∀ item ∈ first.includes, item ∈ second.includes)
    (hnone : first.includes = [] → second.includes = []) : second.IsRoot workspace base root := by
  cases h with
  | base hfirst => exact .base (hnone hfirst)
  | literal hitem hliteral hthere => exact .literal (hincludes _ hitem) hliteral hthere
  | pattern hitem hpattern hfound hroot =>
    exact .pattern (hincludes _ hitem) hpattern hfound hroot

/-- More extensions and fewer ignores let more files through. -/
theorem Filter.Lets.mono (h : first.Lets base path)
    (hextensions : ∀ extension ∈ first.extensions, extension ∈ second.extensions)
    (hignores : ∀ text ∈ second.ignores, text ∈ first.ignores) : second.Lets base path := by
  obtain ⟨extension, hmem, hextension⟩ := h.extension
  exact ⟨⟨extension, hextensions extension hmem, hextension⟩,
    fun text htext => h.literal text (hignores text htext),
    fun text htext => h.pattern text (hignores text htext)⟩

theorem Filter.Alike.symm (h : first.Alike second) : second.Alike first :=
  ⟨fun item => (h.includes item).symm, fun text => (h.ignores text).symm,
    fun extension => (h.extensions extension).symm⟩

theorem Findable.of_alike (h : first.Alike second)
    (hfindable : Findable workspace base first path) : Findable workspace base second path := by
  obtain ⟨root, hroot, hstands⟩ := hfindable.stands
  have hlets : second.Lets base path :=
    hfindable.lets.mono (fun extension => (h.extensions extension).1) fun text => (h.ignores text).2
  refine ⟨⟨root, hroot.mono (fun item => (h.includes item).1) fun hnone => ?_, hstands⟩, hlets⟩
  refine List.eq_nil_iff_forall_not_mem.2 fun item hitem => ?_
  have hmem := (h.includes item).2 hitem
  rw [hnone] at hmem
  cases hmem

section Including

variable {more : List String} (hown : filter.includes ≠ []) (hmore : more ≠ [])

include hown hmore

/-- The roots of two lists of includes are those of the one and those of the other. -/
theorem isRoot_including_iff : (filter.including more).IsRoot workspace base root ↔
    filter.IsRoot workspace base root ∨ (filter.onlyIncluding more).IsRoot workspace base root := by
  constructor
  · intro h
    cases h with
    | base hnone => exact absurd (List.append_eq_nil_iff.1 hnone).1 hown
    | literal hitem hliteral hthere =>
      rcases List.mem_append.1 hitem with hitem | hitem
      · exact .inl (.literal hitem hliteral hthere)
      · exact .inr (.literal hitem hliteral hthere)
    | pattern hitem hpattern hfound hroot =>
      rcases List.mem_append.1 hitem with hitem | hitem
      · exact .inl (.pattern hitem hpattern hfound hroot)
      · exact .inr (.pattern hitem hpattern hfound hroot)
  · intro h
    rcases h with h | h
    · exact h.mono (fun _ => List.mem_append_left _) fun hnone => absurd hnone hown
    · exact h.mono (fun _ => List.mem_append_right _) fun hnone => absurd hnone hmore

theorem findable_including_iff : Findable workspace base (filter.including more) path ↔
    Findable workspace base filter path ∨
      Findable workspace base (filter.onlyIncluding more) path := by
  constructor
  · intro h
    obtain ⟨root, hroot, hstands⟩ := h.stands
    rcases (isRoot_including_iff hown hmore).1 hroot with hroot | hroot
    · exact .inl ⟨⟨root, hroot, hstands⟩, h.lets.mono (fun _ => id) fun _ => id⟩
    · exact .inr ⟨⟨root, hroot, hstands⟩, h.lets.mono (fun _ => id) fun _ => id⟩
  · intro h
    rcases h with h | h <;> obtain ⟨root, hroot, hstands⟩ := h.stands
    · exact ⟨⟨root, (isRoot_including_iff hown hmore).2 (.inl hroot), hstands⟩,
        h.lets.mono (fun _ => id) fun _ => id⟩
    · exact ⟨⟨root, (isRoot_including_iff hown hmore).2 (.inr hroot), hstands⟩,
        h.lets.mono (fun _ => id) fun _ => id⟩

end Including

/-! ## 6. All scans -/

/-- What a scan finds, and what it does not depend on. -/
structure Scanned (workspace : Workspace) (base : Path) (filter : Filter) : Prop where
  /-- A path is in the scan just if it says the same as one that can be found. -/
  files : ∀ path : Path, path.components ∈ (scan workspace base filter).files ↔
    ∃ found, found.components = path.components ∧ Findable workspace base filter found
  /-- Each file is listed once, and can be found under the spelling that was kept. -/
  spelled : ∀ path ∈ (scan workspace base filter).files.paths, Findable workspace base filter path
  once : (scan workspace base filter).files.paths.Pairwise fun first second =>
    first.components ≠ second.components
  /-- Only the members of the lists count, in whatever order and however often they are named. -/
  alike : ∀ other : Filter, filter.Alike other → ∀ path : Path,
    path.components ∈ (scan workspace base filter).files ↔
      path.components ∈ (scan workspace base other).files
  /-- Includes that overlap add up to the files of each. -/
  overlap : ∀ more : List String, filter.includes ≠ [] → more ≠ [] → ∀ path : Path,
    path.components ∈ (scan workspace base (filter.including more)).files ↔
      path.components ∈ (scan workspace base filter).files ∨
        path.components ∈ (scan workspace base (filter.onlyIncluding more)).files
  /-- A literal ignore hides every path that starts with it. -/
  hidden : ∀ text ∈ filter.ignores, isPattern text = false → ∀ path : Path,
    (base / text).components <+: path.components →
      path.components ∉ (scan workspace base filter).files

/-- This holds of every scan. -/
theorem scanned (workspace : Workspace) (base : Path) (filter : Filter) :
    Scanned workspace base filter := by
  constructor
  case files => exact fun path => mem_files_iff
  case spelled => exact fun path => findable_of_mem_paths
  case once =>
    refine (pairwise_paths_collect _).imp fun {first second} hbefore heq => ?_
    have hself : compare second.components second.components = .eq := Std.ReflOrd.compare_self
    rw [Before, heq, hself] at hbefore
    cases hbefore
  case alike =>
    intro other halike path
    rw [mem_files_iff, mem_files_iff]
    refine exists_congr fun found => and_congr_right fun _ => ?_
    exact ⟨.of_alike halike, .of_alike halike.symm⟩
  case overlap =>
    intro more hown hmore path
    simp only [mem_files_iff, findable_including_iff hown hmore, and_or_left, exists_or]
  case hidden =>
    intro text htext hliteral path hstart hmem
    obtain ⟨found, hsame, hfindable⟩ := mem_files_iff.1 hmem
    exact hfindable.lets.literal text htext hliteral (hsame ▸ hstart)

/-- Three includes name one directory, and one of its two files is ignored. -/
example : (scan .sample ⟨"/p"⟩ ⟨["locales", "./locales", "l*"], ["locales/en.json"],
    ["json"]⟩).files.paths = [⟨"/p/locales/fr.json"⟩] := by
  decide +kernel

end Source

end LocaleCatalog
