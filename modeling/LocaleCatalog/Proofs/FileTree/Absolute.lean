import LocaleCatalog.Proofs.FileTree.Disk
import LocaleCatalog.Proofs.FileTree.Graft

/-!
# The absolute path of a place

A place has one absolute path, made of its names (`Location.path`), and this is what a path is
resolved to (`Workspace.absolute_eq`). The path says all that there is to know of the place, if the
names are such as a disk can give to an entry (`IsEntryName`):

* `Location.path_div`, `Location.ancestors_path`: a name behind it is the path of the place below,
  and its ancestors are the paths of the places above;
* `Workspace.contains_path_iff`: something is found at the path just if something stands at the
  place, unless the path is too long to be followed.
-/

namespace LocaleCatalog

/-! ## 1. Names -/

namespace FileTree

variable {tree : FileTree} {place start : Location} {names : List String}

/-- Names lead down, where directories stand on the way. -/
theorem follow_names (hnames : ∀ name ∈ names, IsEntryName name)
    (hway : ∀ on, start <+: on → on <+: start ++ names → on ≠ start ++ names →
      tree.find? on = some .directory) : tree.follow start names = .ok (start ++ names) := by
  induction names generalizing start with
  | nil => rw [List.append_nil]; rfl
  | cons name names ih =>
    obtain ⟨hname, hnames⟩ := List.forall_mem_cons.1 hnames
    have hdirectory := hway start (List.prefix_refl _) (List.prefix_append _ _) (by simp)
    have hstep : tree.step start name = .ok (start ++ [name]) := by
      unfold step
      rw [hdirectory]
      dsimp only
      rw [if_neg (by simp [hname.isName.2.1]), if_neg hname.isName.2.2,
        if_neg (Nat.not_lt.2 hname.short)]
    have happend : start ++ [name] ++ names = start ++ name :: names := by simp
    rw [follow_cons, hstep, ← happend]
    refine ih hnames fun on hbehind hon hne => ?_
    rw [happend] at hon hne
    exact hway on ((List.prefix_append _ _).trans hbehind) hon hne

end FileTree

/-! ## 2. Paths of places -/

namespace Location

variable {place : Location} {name : String}

/-- The absolute path of a place. -/
def path (place : Location) : Path :=
  ⟨"/" ++ "/".intercalate place⟩

theorem isAbsolute_path (place : Location) : (path place).isAbsolute = true := by
  simp [Path.isAbsolute, path]

theorem cons_intercalate {α : Type} (mark : α) (first : List α) (more : List (List α)) :
    mark :: [mark].intercalate (first :: more) =
      (first :: more).flatMap fun part => mark :: part := by
  induction more generalizing first with
  | nil => simp
  | cons second more ih =>
    rw [List.flatMap_cons, ← ih]
    simp

/-- Each name stands behind a slash of its own, if there are any. -/
theorem toList_path (hsome : place ≠ []) :
    (path place).text.toList = place.flatMap fun name => '/' :: name.toList := by
  have hlist : (path place).text.toList =
      '/' :: ['/'].intercalate (place.map String.toList) := by
    simp [path, String.toList_intercalate]
  obtain ⟨name, names, rfl⟩ := List.exists_cons_of_ne_nil hsome
  rw [hlist, List.map_cons, cons_intercalate, ← List.map_cons, List.flatMap_map]

theorem front_path (hnames : ∀ name ∈ place, Path.IsName name) :
    (path place).front = place.flatMap fun name => '/' :: name.toList := by
  rcases List.eq_nil_or_concat' place with rfl | ⟨above, name, rfl⟩
  · decide
  · have htext := toList_path (List.append_ne_nil_of_right_ne_nil above (List.cons_ne_nil name []))
    rw [← htext]
    refine Path.front_of_append ((above.flatMap fun name => '/' :: name.toList) ++ ['/'])
      (hnames name (by simp)) ?_
    rw [htext]
    simp

/-- A name behind the path of a place leads to the place below. -/
theorem path_div (hnames : ∀ name ∈ place, Path.IsName name) (hname : Path.IsName name) :
    path place / name = path (place ++ [name]) := by
  have htext : (path place / name).text.toList = (path (place ++ [name])).text.toList := by
    rw [toList_path (by simp), List.flatMap_append, ← front_path hnames]
    have hjoin := @Path.toList_join (path place) ⟨name⟩
      (Path.ne_of_isAbsolute (isAbsolute_path place)) hname.isAbsolute
    exact hjoin.trans (by simp)
  exact congrArg Path.mk (String.toList_injective htext)

theorem segments_path (hnames : ∀ name ∈ place, Path.IsName name) :
    (path place).segments = "" :: if place = [] then [""] else place :=
  Path.segments_ofSpelling_root fun name hname => (hnames name hname).1

/-- Names are not silent, so none is dropped at the end. -/
theorem dropWhile_isSilent (hnames : ∀ name ∈ place, Path.IsName name) :
    place.reverse.dropWhile Path.isSilent = place.reverse := by
  cases hreverse : place.reverse with
  | nil => rfl
  | cons last before =>
    have hlast : Path.isSilent last = false :=
      (hnames last (List.mem_reverse.1 (hreverse ▸ List.mem_cons_self))).2.1
    rw [List.dropWhile_cons_of_neg (by simp [hlast])]

theorem ancestorsOf_concat (hnames : ∀ name ∈ place, Path.IsName name) (hname : Path.IsName name) :
    Path.ancestorsOf "/" (place ++ [name]).reverse =
      path place :: Path.ancestorsOf "/" place.reverse := by
  have hall : ∀ other ∈ place ++ [name], Path.IsName other :=
    List.forall_mem_append.2 ⟨hnames, List.forall_mem_singleton.2 hname⟩
  have hdrop : (place ++ [name]).reverse.dropWhile Path.isSilent = name :: place.reverse :=
    (dropWhile_isSilent hall).trans (by simp)
  rw [Path.ancestorsOf]
  split
  · rename_i hnil
    rw [hdrop] at hnil
    cases hnil
  · rename_i last rest hcons
    rw [hdrop] at hcons
    cases hcons
    show Path.ofSpelling "/" _ :: Path.ancestorsOf "/" _ = _
    rw [dropWhile_isSilent hnames, List.reverse_reverse]
    rfl

theorem ancestors_path_eq (hnames : ∀ name ∈ place, Path.IsName name) :
    (path place).ancestors = Path.ancestorsOf "/" place.reverse := by
  have hspelling : (path place).spelling = ("/", (path place).segments.drop 1) := by
    unfold Path.spelling
    rw [if_pos (isAbsolute_path place)]
  rw [Path.ancestors, hspelling, segments_path hnames]
  by_cases hnone : place = []
  · subst hnone
    decide +kernel
  · rw [if_neg hnone]
    rfl

/-- The ancestors of the path of a place are the paths of the places above it. -/
theorem ancestors_path (hnames : ∀ name ∈ place, Path.IsName name) (hname : Path.IsName name) :
    (path (place ++ [name])).ancestors = path place :: (path place).ancestors := by
  have hall : ∀ other ∈ place ++ [name], Path.IsName other :=
    List.forall_mem_append.2 ⟨hnames, List.forall_mem_singleton.2 hname⟩
  rw [ancestors_path_eq hall, ancestors_path_eq hnames, ancestorsOf_concat hnames hname]

theorem ancestors_path_nil : (path []).ancestors = [] := by
  decide +kernel

end Location

/-! ## 3. What stands there -/

namespace Workspace

variable {workspace : Workspace} {place : Location} {start : Path}

/-- A path is resolved to the absolute path of the place that it names. -/
theorem absolute_eq (hlocate : workspace.locate start = .ok place)
    (hsome : (workspace.tree.find? place).isSome = true) :
    workspace.absolute start = .ok (Location.path place) := by
  obtain ⟨entry, hentry⟩ := Option.isSome_iff_exists.1 hsome
  unfold absolute
  rw [hlocate]
  simp only [bind, Except.bind, hentry]
  rfl

theorem pathError?_path (hnames : ∀ name ∈ place, IsEntryName name)
    (hshort : (Location.path place).IsShort) : pathError? (Location.path place) = none := by
  have hne := Path.ne_of_isAbsolute (Location.isAbsolute_path place)
  refine pathError?_eq_none_iff.2 ⟨?_, hne, hshort⟩
  by_cases hnone : place = []
  · subst hnone
    decide
  · rw [Location.toList_path hnone]
    simp only [List.mem_flatMap, List.mem_cons, not_exists, not_and, not_or]
    exact fun name hname => ⟨by decide, (hnames name hname).noNul⟩

/-- The path of a place leads there, where directories stand on the way. -/
theorem locate_path (hnames : ∀ name ∈ place, IsEntryName name)
    (hway : ∀ on, on <+: place → on ≠ place → workspace.tree.find? on = some .directory)
    (hshort : (Location.path place).IsShort) :
    workspace.locate (Location.path place) = .ok place := by
  have hstart : workspace.startOf (Location.path place) = [] :=
    if_pos (Location.isAbsolute_path place)
  have hfollow : workspace.tree.follow [] (if place = [] then [""] else place) = .ok place := by
    by_cases hnone : place = []
    · subst hnone
      exact FileTree.follow_slashes (by decide) (FileTree.find?_root _)
    · rw [if_neg hnone]
      refine (FileTree.follow_names hnames fun on _ hon hne => ?_).trans (by rw [List.nil_append])
      rw [List.nil_append] at hon hne
      exact hway on hon hne
  have hroot : workspace.tree.step [] "" = .ok [] := by
    unfold FileTree.step
    rw [FileTree.find?_root]
    rfl
  have hsegments := Location.segments_path fun name hname => (hnames name hname).isName
  rw [FileAction.locate_eq_follow (pathError?_path hnames hshort), hstart, hsegments,
    FileTree.follow_cons, hroot]
  exact hfollow

/-- What stands at a place is found at its path, and nothing is found at a path that is too long. -/
theorem contains_path_iff (hnames : ∀ name ∈ place, IsEntryName name)
    (hway : ∀ on, on <+: place → on ≠ place → workspace.tree.find? on = some .directory) :
    workspace.contains (Location.path place) = true ↔
      (workspace.tree.find? place).isSome = true ∧ (Location.path place).IsShort := by
  unfold contains entryAt
  by_cases hshort : (Location.path place).IsShort
  · rw [locate_path hnames hway hshort, and_iff_left hshort]
    simp only [bind, Except.bind]
    cases workspace.tree.find? place <;> exact iff_of_eq rfl
  · have hlocate : ∃ error, workspace.locate (Location.path place) = .error error := by
      unfold locate
      cases hpath : pathError? (Location.path place) with
      | some error => exact ⟨error, rfl⟩
      | none => exact absurd (pathError?_eq_none_iff.1 hpath).2.2 hshort
    obtain ⟨error, herror⟩ := hlocate
    rw [herror]
    exact iff_of_false Bool.false_ne_true fun h => hshort h.2

end Workspace

end LocaleCatalog
