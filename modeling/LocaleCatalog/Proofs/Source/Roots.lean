import LocaleCatalog.Source.Scan
import LocaleCatalog.Proofs.Glob.Base

/-!
# Scan roots at another place

A scan starts at the roots that the includes name, and takes all files that it finds below them.
From a base that holds a tree (`Workspace.Holds`), both are those of the tree by itself, moved.

* `Source.Filter.IsInward`: the includes of the filter stay below the base. `Source.Filter.Suits`:
  paths below the base do not get too long, and patterns can stand behind it;
* `Source.StandsUnder`: a file stands at a root or below it, spelled from there on. These are the
  files that are found below it (`Source.mem_filesUnder_iff`);
* `Source.scanRoots_spec`: the roots from the base and those of the tree by itself, pair by pair;
* `Source.candidates_eq_map`, `Source.skipped_eq`: so are the files found before any is left out,
  and as many roots are skipped.
-/

namespace LocaleCatalog

/-! ## 1. Moved paths compared -/

namespace Path

variable {base path other : Path}

theorem compare_components_under (hne : base.text ≠ "") (h : path.isAbsolute = true)
    (hother : other.isAbsolute = true) :
    compare (base.under path).components (base.under other).components =
      compare path.components other.components := by
  have hsame (start first second : List Component) :
      compare (start ++ first) (start ++ second) = compare first second := by
    induction start with
    | nil => rfl
    | cons component start ih =>
      rw [List.cons_append, List.cons_append, List.compare_cons_cons, ih,
        Std.ReflOrd.compare_self]
      rfl
  rw [components_under hne h, components_under hne hother, hsame, components_of_isAbsolute h,
    components_of_isAbsolute hother]
  exact (hsame [.root] _ _).symm

theorem isStartOf_under (hne : base.text ≠ "") (h : path.isAbsolute = true)
    (hother : other.isAbsolute = true) :
    (base.under path).isStartOf (base.under other) = path.isStartOf other := by
  have hsame (start first second : List Component) :
      (start ++ first).isPrefixOf (start ++ second) = first.isPrefixOf second := by
    rw [Bool.eq_iff_iff, List.isPrefixOf_iff_prefix, List.isPrefixOf_iff_prefix,
      List.prefix_append_right_inj]
  rw [isStartOf, isStartOf, components_under hne h, components_under hne hother, hsame,
    components_of_isAbsolute h, components_of_isAbsolute hother]
  exact (hsame [.root] _ _).symm

/-- A moved path has the same last name, if it has names of its own. -/
theorem extension?_under (hne : base.text ≠ "") (h : path.isAbsolute = true)
    (hsteps : path.steps ≠ []) : (base.under path).extension? = path.extension? := by
  have hnames : path.segments.filterMap component? ≠ [] := by
    intro heq
    refine hsteps (List.filter_eq_nil_iff.2 fun segment hsegment hsolid => ?_)
    have hnone := List.filterMap_eq_nil_iff.1 heq segment hsegment
    unfold component? at hnone
    rw [if_neg (by simpa using hsolid)] at hnone
    split at hnone <;> cases hnone
  have hlast : (base.under path).components.getLast? = path.components.getLast? := by
    rw [components_under hne h, components_of_isAbsolute h, List.getLast?_append_of_ne_nil _ hnames,
      List.getLast?_cons_of_ne_nil hnames]
  rw [extension?, extension?, fileName?, fileName?, hlast]

end Path

/-! ## 2. Scan roots -/

namespace Source

variable {workspace : Workspace} {base : Path} {place : Location} {inner : FileTree}
  {filter : Filter} {item : String}

/-- The includes and the literal ignores of the filter lead to nothing but what lies below the
    base. -/
structure Filter.IsInward (filter : Filter) : Prop where
  relative : ∀ item ∈ filter.includes, (⟨item⟩ : Path).isAbsolute = false
  plain : ∀ item ∈ filter.includes, (⟨item⟩ : Path).IsPlain
  inward : ∀ item ∈ filter.includes, isPattern item = true → Glob.Inward item
  ignores : ∀ text ∈ filter.ignores, isPattern text = false → (⟨text⟩ : Path).isAbsolute = false

/-- From the base there is room for all paths below the includes, and the base can stand in
    patterns if there are any. -/
structure Filter.Suits (filter : Filter) (base : Path) (inner : FileTree) : Prop where
  room : ∀ item ∈ filter.includes, inner.Roomy base (item.utf8ByteSize + 2)
  tidy : (∃ item ∈ filter.includes, isPattern item = true) → Glob.IsTidy base

/-- A relative path behind the root spends no more than its length and the two slashes around it. -/
theorem spells_root (hrelative : (⟨item⟩ : Path).isAbsolute = false)
    (hplain : (⟨item⟩ : Path).IsPlain) :
    ((⟨"/"⟩ : Path) / item).Spells (item.utf8ByteSize + 2) := by
  refine ⟨Path.isAbsolute_div (by decide) _, ?_, ?_⟩
  · rw [Path.isPlain_iff, Path.steps, Path.segments_root_div hrelative]
    rw [Path.isPlain_iff, Path.steps] at hplain
    simpa [Path.isSilent] using hplain
  · have hsize := Path.size_div_le ⟨"/"⟩ item
    have hone : (⟨"/"⟩ : Path).text.utf8ByteSize = 1 := by decide
    omega

theorem rootsOf_of_isPattern (h : isPattern item = true) : rootsOf workspace base item =
    (Glob.directories workspace (base / item)).toOption.getD [] := by
  unfold rootsOf
  rw [if_pos h]
  cases Glob.directories workspace (base / item) <;> rfl

/-- A root that an include names in a tree by itself was reached, within the length of the
    include. -/
theorem reached_of_mem_rootsOf (hnamed : inner.Named)
    (hrelative : (⟨item⟩ : Path).isAbsolute = false) (hplain : (⟨item⟩ : Path).IsPlain)
    (hinward : isPattern item = true → Glob.Inward item) {root : Path}
    (hroot : root ∈ rootsOf inner.alone ⟨"/"⟩ item) :
    inner.Reached (item.utf8ByteSize + 2) root := by
  unfold rootsOf at hroot
  split at hroot
  · rename_i hpattern
    split at hroot
    · rename_i found hfound
      exact Glob.reached_of_mem_directories hnamed hrelative (hinward hpattern) hfound root hroot
    · cases hroot
  · split at hroot
    · rename_i hcontains
      obtain rfl := List.mem_singleton.1 hroot
      exact FileTree.Reached.of_contains (spells_root hrelative hplain) hcontains
    · cases hroot

/-- An include names the roots that it names in the tree by itself, moved. -/
theorem rootsOf_eq_map (h : workspace.Holds base place inner) (hnamed : inner.Named)
    (hroom : inner.Roomy base (item.utf8ByteSize + 2))
    (hrelative : (⟨item⟩ : Path).isAbsolute = false) (hplain : (⟨item⟩ : Path).IsPlain)
    (hpattern : isPattern item = true → Glob.Inward item ∧ Glob.IsTidy base) :
    rootsOf workspace base item = (rootsOf inner.alone ⟨"/"⟩ item).map base.under := by
  have hbase : base / item = base.under ((⟨"/"⟩ : Path) / item) :=
    h.mirrors_base.div item hrelative
  by_cases hisPattern : isPattern item = true
  · obtain ⟨hinward, htidy⟩ := hpattern hisPattern
    have hne : item ≠ "" := by
      intro heq
      rw [heq] at hisPattern
      exact absurd hisPattern (by decide)
    rw [rootsOf_of_isPattern hisPattern, rootsOf_of_isPattern hisPattern, hbase,
      Glob.directories_under htidy h hnamed hroom hrelative hinward hne]
    cases Glob.directories inner.alone ((⟨"/"⟩ : Path) / item) <;> rfl
  · have hspells := spells_root hrelative hplain
    have hroot : (inner.find? []).isSome = true := by
      rw [FileTree.find?_root]
      rfl
    have hshort : (base.under ((⟨"/"⟩ : Path) / item)).IsShort := by
      refine hroom.isShort hroot ?_
      have hsize := Path.size_div_le ⟨"/"⟩ item
      have hone : (⟨"/"⟩ : Path).text.utf8ByteSize = 1 := by decide
      omega
    have hmirrors := h.mirrors_under hspells.absolute hspells.plain hshort
    unfold rootsOf
    rw [if_neg hisPattern, if_neg hisPattern, hbase, hmirrors.contains h]
    split <;> rfl

/-! ## 3. Files below the roots -/

/-- What is found at a path comes first, under the path itself. -/
theorem exists_of_walk {path : Path} {entries : List (Path × Entry)}
    (h : workspace.walk path = .ok entries) : ∃ entry more, entries = (path, entry) :: more ∧
      (workspace.isDirectory path = true → entry = .directory) := by
  obtain ⟨place, hlocate, h⟩ := bind_eq_ok.1 h
  split at h
  · cases h
  · rename_i bytes hfile
    cases h
    refine ⟨.file bytes, [], rfl, fun hdirectory => ?_⟩
    obtain ⟨other, hother, hfound⟩ := Workspace.isDirectory_iff.1 hdirectory
    rw [hlocate] at hother
    cases hother
    rw [hfile] at hfound
    cases hfound
  · cases h
    exact ⟨.directory, _, rfl, fun _ => rfl⟩

/-- The path of a file; a directory has none. -/
def fileAt? : Path × Entry → Option Path
  | (path, .file _) => some path
  | (_, .directory) => none

theorem filesUnder_eq (workspace : Workspace) (root : Path) : filesUnder workspace root =
    ((workspace.walk root).map (List.filterMap fileAt?)).toOption.getD [] := by
  unfold filesUnder
  cases workspace.walk root <;> rfl

/-- A file stands at the root or below it, and the path is spelled as the root, joined with the
    names that lead there. -/
def StandsUnder (workspace : Workspace) (root path : Path) : Prop :=
  ∃ (place names : Location) (bytes : ByteArray), workspace.locate root = .ok place ∧
    (names = [] ∨ workspace.tree.find? place = some .directory) ∧
    workspace.tree.find? (place ++ names) = some (.file bytes) ∧
    path = names.foldl (fun spelled name => spelled / name) root

theorem mem_filterMap_fileAt? {entries : List (Path × Entry)} {path : Path} :
    path ∈ entries.filterMap fileAt? ↔ ∃ bytes, (path, .file bytes) ∈ entries := by
  rw [List.mem_filterMap]
  constructor
  · intro h
    obtain ⟨⟨found, entry⟩, hmem, h⟩ := h
    cases entry with
    | directory => cases h
    | file bytes =>
      cases h
      exact ⟨bytes, hmem⟩
  · intro h
    obtain ⟨bytes, hmem⟩ := h
    exact ⟨_, hmem, rfl⟩

theorem mem_filesUnder_iff {root path : Path} :
    path ∈ filesUnder workspace root ↔ StandsUnder workspace root path := by
  rw [filesUnder_eq]
  constructor
  · intro h
    cases hwalk : workspace.walk root with
    | error error =>
      rw [hwalk] at h
      cases h
    | ok entries =>
      rw [hwalk] at h
      obtain ⟨bytes, hmem⟩ := mem_filterMap_fileAt?.1 h
      obtain ⟨place, hlocate, hwalk⟩ := bind_eq_ok.1 hwalk
      split at hwalk
      · cases hwalk
      · rename_i hfile
        cases hwalk
        cases List.mem_singleton.1 hmem
        exact ⟨place, [], bytes, hlocate, .inl rfl, by rwa [List.append_nil], rfl⟩
      · rename_i hdirectory
        cases hwalk
        rcases List.mem_cons.1 hmem with heq | hmem
        · cases heq
        · obtain ⟨⟨names, entry⟩, hbelow, heq⟩ := List.mem_map.1 hmem
          cases heq
          have hfile := (FileTree.mem_below.1 hbelow).2
          exact ⟨place, names, bytes, hlocate, .inr hdirectory, hfile, rfl⟩
  · intro h
    obtain ⟨place, names, bytes, hlocate, hroot, hfile, rfl⟩ := h
    by_cases hnames : names = []
    · subst hnames
      rw [List.append_nil] at hfile
      have hwalk : workspace.walk root = .ok [(root, .file bytes)] := by
        unfold Workspace.walk
        rw [hlocate]
        simp only [bind, Except.bind, hfile]
        rfl
      rw [hwalk]
      exact mem_filterMap_fileAt?.2 ⟨bytes, List.mem_singleton_self _⟩
    · have hdirectory := hroot.resolve_left hnames
      have hwalk : workspace.walk root = .ok ((root, .directory) :: (workspace.tree.below place).map
          fun found => (found.1.foldl (fun spelled name => spelled / name) root, found.2)) := by
        unfold Workspace.walk
        rw [hlocate]
        simp only [bind, Except.bind, hdirectory]
        rfl
      rw [hwalk]
      refine mem_filterMap_fileAt?.2 ⟨bytes, List.mem_cons_of_mem _ ?_⟩
      exact List.mem_map_of_mem (FileTree.mem_below.2 ⟨hnames, hfile⟩)

/-- The files below a path are those below its own, moved. -/
theorem filesUnder_eq_map (h : workspace.Holds base place inner) (hnamed : inner.Named)
    {path own : Path} (hmirrors : workspace.Mirrors base place inner path own)
    (hmoved : path = base.under own ∨ inner.alone.isDirectory own = true) :
    filesUnder workspace path = (filesUnder inner.alone own).map base.under := by
  rw [filesUnder_eq, filesUnder_eq, hmirrors.walk h hnamed]
  cases hwalk : inner.alone.walk own with
  | error error => rfl
  | ok entries =>
    obtain ⟨entry, more, rfl, hdirectory⟩ := exists_of_walk hwalk
    have hmore : (more.map fun found => (base.under found.1, found.2)).filterMap fileAt? =
        (more.filterMap fileAt?).map base.under := by
      rw [List.filterMap_map, List.map_filterMap]
      refine List.filterMap_congr fun item _ => ?_
      obtain ⟨found, entry⟩ := item
      cases entry <;> rfl
    cases entry with
    | directory => exact hmore
    | file bytes =>
      have hown := hmoved.resolve_right fun hdir => by cases hdirectory hdir
      rw [hown]
      exact congrArg _ hmore

/-- A file that is found below a path that was reached was reached with it. -/
theorem reached_of_mem_filesUnder (hnamed : inner.Named) {spent : Nat} {root path : Path}
    (hroot : inner.Reached spent root) (h : path ∈ filesUnder inner.alone root) :
    path.Spells spent ∧ path.steps ≠ [] := by
  obtain ⟨place, names, bytes, hlocate, -, hfile, rfl⟩ := mem_filesUnder_iff.1 h
  obtain rfl := FileTree.locate_alone hlocate hroot.toSpells
  have hnames : ∀ name ∈ names, Path.IsName name := by
    by_cases hnil : names = []
    · rw [hnil]
      exact List.forall_mem_nil _
    · exact hnamed.of_mem (FileTree.mem_below.2 ⟨hnil, hfile⟩)
  obtain ⟨hspells, hall⟩ := hroot.toSpells.foldl hnames
  refine ⟨hspells, fun hnone => ?_⟩
  rw [hnone] at hall
  rw [FileTree.alone, ← hall, FileTree.find?_root] at hfile
  cases hfile

/-- All files below the scan roots, before any is left out. -/
def candidates (workspace : Workspace) (base : Path) (filter : Filter) : List Path :=
  (scanRoots workspace base filter).flatMap (filesUnder workspace)

section Candidates

variable (h : workspace.Holds base place inner) (hnamed : inner.Named) (hinward : filter.IsInward)
  (hsuits : filter.Suits base inner)

/-- The files of a tree by itself are reached by absolute paths, and are not the root. -/
theorem spells_of_mem_candidates (hnamed : inner.Named) (hinward : filter.IsInward) {path : Path}
    (hpath : path ∈ candidates inner.alone ⟨"/"⟩ filter) :
    path.isAbsolute = true ∧ path.steps ≠ [] := by
  obtain ⟨root, hroot, hpath⟩ := List.mem_flatMap.1 hpath
  have hreached : ∃ spent, inner.Reached spent root := by
    unfold scanRoots at hroot
    split at hroot
    · rw [List.mem_singleton.1 hroot]
      exact ⟨1, FileTree.Reached.root⟩
    · obtain ⟨item, hitem, hroot⟩ := List.mem_flatMap.1 hroot
      exact ⟨_, reached_of_mem_rootsOf hnamed (hinward.relative item hitem)
        (hinward.plain item hitem) (hinward.inward item hitem) hroot⟩
  obtain ⟨spent, hreached⟩ := hreached
  obtain ⟨hspells, hsteps⟩ := reached_of_mem_filesUnder hnamed hreached hpath
  exact ⟨hspells.absolute, hsteps⟩

include h hnamed hinward hsuits

/-- The scan roots are those of the tree by itself, moved, or the base for its root. Files are
    found below them alike. -/
theorem scanRoots_spec : ∃ roots : List (Path × Path),
    scanRoots workspace base filter = roots.map (·.1) ∧
    scanRoots inner.alone ⟨"/"⟩ filter = roots.map (·.2) ∧
    ∀ root ∈ roots, workspace.Mirrors base place inner root.1 root.2 ∧
      (root.1 = base.under root.2 ∨ inner.alone.isDirectory root.2 = true) := by
  unfold scanRoots
  split
  · -- without includes the base is searched, which is spelled otherwise than a moved root
    have hroot : inner.alone.isDirectory ⟨"/"⟩ = true :=
      Workspace.isDirectory_iff.2 ⟨[], Workspace.locate_root, FileTree.find?_root _⟩
    refine ⟨[(base, ⟨"/"⟩)], rfl, rfl, fun root hmem => ?_⟩
    obtain rfl := List.mem_singleton.1 hmem
    exact ⟨h.mirrors_base, .inr hroot⟩
  · let own := filter.includes.flatMap (rootsOf inner.alone ⟨"/"⟩)
    have hmoved : filter.includes.flatMap (rootsOf workspace base) = own.map base.under := by
      rw [List.map_flatMap]
      refine List.flatMap_congr fun item hitem => ?_
      exact rootsOf_eq_map h hnamed (hsuits.room item hitem) (hinward.relative item hitem)
        (hinward.plain item hitem) fun hpattern =>
          ⟨hinward.inward item hitem hpattern, hsuits.tidy ⟨item, hitem, hpattern⟩⟩
    refine ⟨own.map fun root => (base.under root, root), ?_, ?_, fun root hmem => ?_⟩
    · rw [hmoved, List.map_map]
      rfl
    · rw [List.map_map]
      exact (List.map_id _).symm
    · obtain ⟨root, hroot, rfl⟩ := List.mem_map.1 hmem
      obtain ⟨item, hitem, hroot⟩ := List.mem_flatMap.1 hroot
      have hreached := reached_of_mem_rootsOf hnamed (hinward.relative item hitem)
        (hinward.plain item hitem) (hinward.inward item hitem) hroot
      exact ⟨hreached.mirrors h (hsuits.room item hitem) le_rfl, .inl rfl⟩

theorem candidates_eq_map :
    candidates workspace base filter = (candidates inner.alone ⟨"/"⟩ filter).map base.under := by
  obtain ⟨roots, hmoved, hown, hroots⟩ := scanRoots_spec h hnamed hinward hsuits
  unfold candidates
  rw [hmoved, hown, List.flatMap_map, List.flatMap_map, List.map_flatMap]
  exact List.flatMap_congr fun root hroot =>
    filesUnder_eq_map h hnamed (hroots root hroot).1 (hroots root hroot).2

theorem skipped_eq : (scan workspace base filter).skipped =
    (scan inner.alone ⟨"/"⟩ filter).skipped := by
  obtain ⟨roots, hmoved, hown, hroots⟩ := scanRoots_spec h hnamed hinward hsuits
  show List.countP _ (scanRoots workspace base filter) =
    List.countP _ (scanRoots inner.alone ⟨"/"⟩ filter)
  rw [hmoved, hown, List.countP_map, List.countP_map]
  refine List.countP_congr fun root hroot => ?_
  simp only [Function.comp_apply]
  rw [(hroots root hroot).1.walk h hnamed, Glob.isOk_map]

end Candidates

end Source

end LocaleCatalog
