import LocaleCatalog.Proofs.FileTree.Anchored
import LocaleCatalog.Proofs.Source.Relocation

/-!
# Scans below an absolute base

Behind an absolute base every include is absolute, and so is every path that is reached from there.
So a scan does not depend on the current directory:

* `SamePaths`: the same paths were found in two workspaces, all of them absolute. It holds of the
  directories that a pattern leads to (`Glob.expandFrom_anchored`), of the scan roots and of the
  files below them;
* `Source.scan_anchored`: the same files are found, and their paths are absolute
  (`Source.isAbsolute_of_mem_paths`).
-/

namespace LocaleCatalog

/-! ## 1. The same paths -/

/-- The same was found in two workspaces, under absolute paths. -/
structure SamePaths (found other : List Path) : Prop where
  eq : found = other
  absolute : ∀ path ∈ found, path.isAbsolute = true

namespace SamePaths

variable {found other : List Path} {path : Path}

theorem nil : SamePaths [] [] :=
  ⟨rfl, List.forall_mem_nil _⟩

theorem singleton (habs : path.isAbsolute = true) : SamePaths [path] [path] :=
  ⟨rfl, List.forall_mem_singleton.2 habs⟩

theorem append {more others : List Path} (h : SamePaths found other)
    (hmore : SamePaths more others) : SamePaths (found ++ more) (other ++ others) :=
  ⟨by rw [h.eq, hmore.eq], List.forall_mem_append.2 ⟨h.absolute, hmore.absolute⟩⟩

/-- What was found from each of some items is the same, if it is for each of them. -/
theorem flatMap {α : Type} {items : List α} {f g : α → List Path}
    (h : ∀ item ∈ items, SamePaths (f item) (g item)) :
    SamePaths (items.flatMap f) (items.flatMap g) := by
  refine ⟨List.flatMap_congr fun item hitem => (h item hitem).eq, fun path hpath => ?_⟩
  obtain ⟨item, hitem, hpath⟩ := List.mem_flatMap.1 hpath
  exact (h item hitem).absolute path hpath

/-- Other paths are found from those that were found. -/
theorem bind {f g : Path → List Path} (h : SamePaths found other)
    (hnext : ∀ path, path.isAbsolute = true → SamePaths (f path) (g path)) :
    SamePaths (found.flatMap f) (other.flatMap g) := by
  rw [← h.eq]
  exact flatMap fun path hpath => hnext path (h.absolute path hpath)

theorem filter {p q : Path → Bool} (h : SamePaths found other)
    (hsame : ∀ path, path.isAbsolute = true → p path = q path) :
    SamePaths (found.filter p) (other.filter q) := by
  rw [← h.eq]
  exact ⟨List.filter_congr fun path hpath => hsame path (h.absolute path hpath),
    fun path hpath => h.absolute path (List.mem_of_mem_filter hpath)⟩

end SamePaths

variable {first second : Workspace} {path base : Path} (htree : first.tree = second.tree)

/-! ## 2. Patterns -/

namespace Glob

variable {pattern : Pattern} {patterns : List Pattern} (habs : path.isAbsolute = true)

include habs

omit htree in
theorem isAbsolute_reach (name : String) : (reach path name).isAbsolute = true := by
  rw [reach_eq (components_ne_of_isAbsolute habs)]
  exact Path.isAbsolute_div habs name

omit htree in
theorem isAbsolute_of_mem_entriesBelow {workspace : Workspace} {found : String × Path}
    (h : found ∈ entriesBelow workspace path) : found.2.isAbsolute = true := by
  unfold entriesBelow at h
  split at h
  · cases h
  · split at h
    · obtain ⟨below, -, hfound⟩ := List.mem_filterMap.1 h
      split at hfound
      · cases hfound
      · cases hfound
        exact Path.isAbsolute_foldl (isAbsolute_reach habs _) _
    · cases h

include htree

/-- A component leads to the same paths. -/
theorem onward_anchored (pattern : Pattern) :
    SamePaths (onward first pattern path) (onward second pattern path) := by
  have hnames {names : List String} {f : String → Path}
      (hf : ∀ name, (f name).isAbsolute = true) : SamePaths (names.map f) (names.map f) :=
    ⟨rfl, List.forall_mem_map.2 fun name _ => hf name⟩
  unfold onward
  split
  · rename_i name hname
    have hpresent : present first path name = present second path name := by
      unfold present
      rw [Workspace.isDirectory_anchored htree habs,
        Workspace.contains_anchored htree (isAbsolute_reach habs name)]
    rw [hpresent]
    split
    · exact .singleton (isAbsolute_reach habs name)
    · exact .nil
  · rw [Workspace.isDirectory_anchored htree habs, Workspace.namesIn_anchored htree habs]
    split
    · exact (hnames fun name => Path.isAbsolute_div habs name).append
        (hnames fun name => isAbsolute_reach habs name)
    · exact .nil

theorem deeper_anchored : deeper first path = deeper second path := by
  unfold deeper entriesBelow
  rw [Workspace.isDirectory_anchored htree habs, Workspace.locate_anchored htree habs, htree]

/-- A pattern leads to the same paths. -/
theorem expandFrom_anchored :
    SamePaths (expandFrom first patterns path) (expandFrom second patterns path) ∧
      ∀ name, SamePaths (expandFrom.afterRecursive first patterns name path)
        (expandFrom.afterRecursive second patterns name path) := by
  induction patterns generalizing path with
  | nil => exact ⟨.singleton habs, fun _ => .singleton habs⟩
  | cons pattern patterns ih =>
    constructor
    · rw [expandFrom_cons, expandFrom_cons]
      split
      · rw [deeper_anchored htree habs]
        refine .flatMap fun found hfound => (ih ?_).2 found.1
        unfold deeper at hfound
        split at hfound
        · exact isAbsolute_of_mem_entriesBelow habs hfound
        · cases hfound
      · exact (onward_anchored htree habs pattern).bind fun next hnext => (ih hnext).1
    · intro name
      unfold expandFrom.afterRecursive
      split
      · exact (ih habs).2 name
      · split
        · exact (ih habs).1
        · exact .nil

end Glob

/-! ## 3. Scans -/

namespace Source

variable {filter : Filter} (habs : base.isAbsolute = true)

include htree habs

theorem rootsOf_anchored (item : String) :
    SamePaths (rootsOf first base item) (rootsOf second base item) := by
  have hitem := Path.isAbsolute_div habs item
  unfold rootsOf
  split
  · unfold Glob.directories
    rw [if_pos hitem]
    cases Glob.componentPatterns (base / item) with
    | error error => exact .nil
    | ok patterns =>
      have hroot : (⟨"/"⟩ : Path).isAbsolute = true := by decide
      exact (Glob.expandFrom_anchored htree hroot).1.filter fun found hfound =>
        Workspace.isDirectory_anchored htree hfound
  · rw [Workspace.contains_anchored htree hitem]
    split
    · exact .singleton hitem
    · exact .nil

theorem scanRoots_anchored (filter : Filter) :
    SamePaths (scanRoots first base filter) (scanRoots second base filter) := by
  unfold scanRoots
  split
  · exact .singleton habs
  · exact .flatMap fun item _ => rootsOf_anchored htree habs item

theorem filesUnder_anchored : SamePaths (filesUnder first base) (filesUnder second base) := by
  refine ⟨?_, fun path hpath => ?_⟩
  · rw [filesUnder_eq, filesUnder_eq, Workspace.walk_anchored htree habs]
  · obtain ⟨place, names, bytes, -, -, -, rfl⟩ := mem_filesUnder_iff.1 hpath
    exact Path.isAbsolute_foldl habs names

theorem candidates_anchored (filter : Filter) :
    SamePaths (candidates first base filter) (candidates second base filter) :=
  (scanRoots_anchored htree habs filter).bind fun _ hroot => filesUnder_anchored htree hroot

/-- The same files are found, and the same roots cannot be looked at. -/
theorem scan_anchored (filter : Filter) : scan first base filter = scan second base filter := by
  have hroots := scanRoots_anchored htree habs filter
  have hskipped : (scan first base filter).skipped = (scan second base filter).skipped := by
    show List.countP _ (scanRoots first base filter) = List.countP _ (scanRoots second base filter)
    rw [← hroots.eq]
    refine List.countP_congr fun root hroot => ?_
    rw [Workspace.walk_anchored htree (hroots.absolute root hroot)]
  have hfiles : (scan first base filter).files = (scan second base filter).files := by
    show collect ((candidates first base filter).filter _) =
      collect ((candidates second base filter).filter _)
    rw [(candidates_anchored htree habs filter).eq]
  exact congrArg₂ Scan.mk hfiles hskipped

omit htree in
theorem isAbsolute_of_mem_paths {workspace : Workspace}
    (h : path ∈ (scan workspace base filter).files.paths) : path.isAbsolute = true := by
  have hmem := List.mem_of_find?_eq_some (mem_paths_collect.1 h)
  exact (candidates_anchored rfl habs filter).absolute path (List.mem_of_mem_filter hmem)

end Source

end LocaleCatalog
