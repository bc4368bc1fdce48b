import Mathlib.Data.List.Basic
import LocaleCatalog.Proofs.FileTree.Landing
import LocaleCatalog.Proofs.FileTree.Standing

/-!
# A tree at another place

A directory holds a tree if the same stands below it as stands below the root of the tree
(`Workspace.Holds`). Such a directory may lie anywhere, and what is asked of it does not tell where:
the answers are those of the tree by itself (`FileTree.alone`), moved.

* `Path.under`: an absolute path, as it is seen from a base instead of the root
  (`Path.components_under`);
* `Workspace.Holds.find?`, `Workspace.Holds.below_append`: what stands at a place and below it;
* `Workspace.Mirrors`: a path leads where its own leads in the tree by itself. So does a moved path
  (`Workspace.Holds.mirrors_under`) that does not go up, since more may lie above the base than
  above the root, and is not too long where it is moved to (`Path.IsShort`), and so does the base
  itself (`Workspace.Holds.mirrors_base`);
* `Workspace.Mirrors.entryAt`, `Workspace.Mirrors.namesIn`, `Workspace.Mirrors.walk`: questions about
  the two get the same answers, in moved paths.
-/

namespace LocaleCatalog

/-! ## 1. What stands below a place -/

namespace FileTree

variable {tree : FileTree} {place inside : Location} {entry : Entry}

theorem relative?_eq_some_iff {place found inside : Location} :
    relative? place found = some inside ↔ found = place ++ inside := by
  unfold relative?
  split
  · rename_i h
    obtain ⟨more, rfl⟩ := List.isPrefixOf_iff_prefix.1 h
    simp [eq_comm]
  · rename_i h
    refine iff_of_false (by simp) fun heq => h (List.isPrefixOf_iff_prefix.2 ?_)
    exact ⟨inside, heq.symm⟩

/-- The tree names all that stands below a place. -/
theorem mem_below : (inside, entry) ∈ tree.below place ↔
    inside ≠ [] ∧ tree.find? (place ++ inside) = some entry := by
  have hroot (h : inside ≠ []) : place ++ inside ≠ [] := by simp [h]
  unfold below
  rw [List.mem_filterMap]
  constructor
  · intro h
    obtain ⟨⟨found, there⟩, hmem, h⟩ := h
    dsimp only at h
    split at h
    · rename_i name names hrelative
      cases h
      obtain rfl := relative?_eq_some_iff.1 hrelative
      refine ⟨List.cons_ne_nil _ _, ?_⟩
      rw [find?, if_neg (hroot (List.cons_ne_nil _ _))]
      exact Std.ExtTreeMap.mem_toList_iff_getElem?_eq_some.1 hmem
    · cases h
  · intro h
    obtain ⟨hne, hfound⟩ := h
    rw [find?, if_neg (hroot hne)] at hfound
    refine ⟨(place ++ inside, entry), Std.ExtTreeMap.mem_toList_iff_getElem?_eq_some.2 hfound, ?_⟩
    dsimp only
    rw [relative?_eq_some_iff.2 rfl]
    cases inside with
    | nil => exact absurd rfl hne
    | cons name names => rfl

/-- What stands below a deeper place is part of what stands below a higher one. -/
theorem below_append (tree : FileTree) (place inside : Location) :
    tree.below (place ++ inside) = (tree.below place).filterMap fun (found, entry) =>
      match relative? inside found with
      | some (name :: names) => some (name :: names, entry)
      | _ => none := by
  unfold below
  rw [List.filterMap_filterMap]
  refine List.filterMap_congr fun item _ => ?_
  obtain ⟨found, entry⟩ := item
  dsimp only
  cases hrelative : relative? place found with
  | none =>
    have hnone : relative? (place ++ inside) found = none := by
      refine Option.eq_none_iff_forall_ne_some.2 fun more hmore => ?_
      rw [relative?_eq_some_iff, List.append_assoc] at hmore
      rw [relative?_eq_some_iff.2 hmore] at hrelative
      cases hrelative
    rw [hnone]
    rfl
  | some names =>
    obtain rfl := relative?_eq_some_iff.1 hrelative
    have hsame : relative? (place ++ inside) (place ++ names) = relative? inside names := by
      refine Option.ext fun more => ?_
      rw [relative?_eq_some_iff, relative?_eq_some_iff, List.append_assoc,
        List.append_right_inj]
    rw [hsame]
    cases names with
    | nil =>
      have hnothing : ∀ name more, relative? inside [] ≠ some (name :: more) := by
        intro name more heq
        have := relative?_eq_some_iff.1 heq
        simp at this
      cases hinside : relative? inside [] with
      | none => rfl
      | some more =>
        cases more with
        | nil => rfl
        | cons name more => exact absurd hinside (hnothing name more)
    | cons name names => rfl

/-- Every entry of the tree has a name that can stand in a path. -/
def Named (tree : FileTree) : Prop :=
  ∀ found ∈ tree.below [], ∀ name ∈ found.1, Path.IsName name

instance (tree : FileTree) : Decidable tree.Named :=
  inferInstanceAs (Decidable (∀ found ∈ tree.below [], ∀ name ∈ found.1, Path.IsName name))

theorem Named.of_mem (h : tree.Named) (hfound : (inside, entry) ∈ tree.below place) :
    ∀ name ∈ inside, Path.IsName name := by
  rw [mem_below] at hfound
  intro name hname
  refine h (place ++ inside, entry) (mem_below.2 ⟨?_, hfound.2⟩) name (List.mem_append_right _ hname)
  simp [hfound.1]

/-- The tree, with paths that start from its root. -/
def alone (tree : FileTree) : Workspace := ⟨tree, []⟩

end FileTree

/-! ## 2. Moved paths -/

namespace Path

variable {base path : Path}

/-- An absolute path, seen from the base instead of the root. -/
def under (base path : Path) : Path :=
  ⟨String.ofList base.front ++ path.text⟩

/-- The path is short enough to be followed. -/
def IsShort (path : Path) : Prop :=
  path.text.utf8ByteSize ≤ longestPath

/-- A path is its front, or has one slash more. -/
theorem toList_eq_front (path : Path) :
    path.text.toList = path.front ∨ path.text.toList = path.front ++ ['/'] := by
  unfold front
  split
  · rename_i hslash
    obtain ⟨front, hfront⟩ := List.getLast?_eq_some_iff.1 hslash
    simp [hfront]
  · exact .inl rfl

theorem front_isStart (path : Path) : path.front <+: path.text.toList := by
  rcases toList_eq_front path with htext | htext
  · exact htext ▸ List.prefix_refl _
  · exact htext ▸ List.prefix_append _ _

/-- What stands before its last slash decides whether a path starts at the root. -/
theorem isAbsolute_eq_front (hne : path.text ≠ "") :
    path.isAbsolute = decide ((path.front ++ ['/']).head? = some '/') := by
  rcases toList_eq_front path with htext | htext
  · rw [isAbsolute, htext]
    cases hfront : path.front with
    | nil => exact absurd (String.toList_eq_nil_iff.1 (htext.trans hfront)) hne
    | cons c cs => simp
  · rw [isAbsolute, htext]

theorem toList_under (base path : Path) :
    (base.under path).text.toList = base.front ++ path.text.toList := by
  simp [under]

theorem exists_of_isAbsolute (h : path.isAbsolute = true) :
    ∃ cs, path.text.toList = '/' :: cs := by
  simpa [isAbsolute, List.head?_eq_some_iff] using h

theorem isAbsolute_under (hne : base.text ≠ "") (habs : path.isAbsolute = true) :
    (base.under path).isAbsolute = base.isAbsolute := by
  obtain ⟨cs, hcs⟩ := exists_of_isAbsolute habs
  rw [isAbsolute_eq ((toList_under base path).trans (congrArg _ hcs)), isAbsolute_eq_front hne]

theorem ne_of_isAbsolute (h : path.isAbsolute = true) : path.text ≠ "" := by
  obtain ⟨cs, hcs⟩ := exists_of_isAbsolute h
  intro heq
  simp [heq] at hcs

/-- A relative path behind the base is the absolute one below it. -/
theorem join_eq_under (hbase : base.text ≠ "") (hpath : path.isAbsolute = false) :
    base.join path = base.under ⟨"/" ++ path.text⟩ := by
  have htext : (base.join path).text = (base.under ⟨"/" ++ path.text⟩).text := by
    apply String.toList_injective
    rw [toList_join hbase hpath, toList_under]
    simp
  cases hjoin : base.join path with
  | mk text =>
    rw [hjoin] at htext
    exact congrArg Path.mk htext

/-- A relative path seen from the root. -/
theorem root_div {item : String} (hitem : (⟨item⟩ : Path).isAbsolute = false) :
    (⟨"/"⟩ : Path) / item = ⟨"/" ++ item⟩ := by
  show join _ _ = _
  simp [join, hitem]

theorem segments_root_div {item : String} (hitem : (⟨item⟩ : Path).isAbsolute = false) :
    ((⟨"/"⟩ : Path) / item).segments = "" :: (⟨item⟩ : Path).segments := by
  rw [root_div hitem]
  simp [segments, pieces]

/-- Moving a path does not touch the names behind it. -/
theorem under_div (habs : path.isAbsolute = true) {name : String}
    (hname : (⟨name⟩ : Path).isAbsolute = false) :
    base.under (path / name) = base.under path / name := by
  obtain ⟨cs, hcs⟩ := exists_of_isAbsolute habs
  have hne := ne_of_isAbsolute habs
  have hmoved : (base.under path).text ≠ "" := by
    intro heq
    have hlist := congrArg String.toList heq
    rw [toList_under, hcs] at hlist
    simp at hlist
  have hlast : (base.under path).text.toList.getLast? = path.text.toList.getLast? := by
    rw [toList_under, hcs, List.getLast?_append, List.getLast?_cons, Option.some_or]
  have hrelative : ¬ (⟨name⟩ : Path).isAbsolute = true := by simp [hname]
  show base.under (path.join ⟨name⟩) = (base.under path).join ⟨name⟩
  unfold join
  rw [if_neg hrelative, if_neg hrelative, hlast]
  by_cases hslash : path.text.toList.getLast? = some '/'
  · rw [if_pos (.inr hslash), if_pos (.inr hslash)]
    simp [under, String.append_assoc]
  · rw [if_neg (by simp [hne, hslash]), if_neg (by simp [hmoved, hslash])]
    simp [under, String.append_assoc]

/-- What lies before a name that is put behind a path. -/
theorem segments_div (hne : path.text ≠ "") {name : String} (hname : '/' ∉ name.toList) :
    (path / name).segments = (pieces path.front).map String.ofList ++ [name] := by
  have htext : (path / name).text.toList = path.front ++ '/' :: name.toList :=
    toList_join hne (isAbsolute_of_not_mem hname)
  rw [segments, htext, pieces_append_slash, pieces_of_not_mem hname]
  simp

theorem steps_div (hne : path.text ≠ "") {name : String} (hname : '/' ∉ name.toList) :
    (path / name).steps = path.steps ++ [name].filter fun segment => !isSilent segment := by
  have hfront : path.steps =
      ((pieces path.front).map String.ofList).filter fun segment => !isSilent segment := by
    rcases toList_eq_front path with htext | htext
    · rw [steps, segments, htext]
    · rw [steps, segments, htext, pieces_append_slash]
      simp [pieces, isSilent]
  rw [steps, segments_div hne hname, List.filter_append, hfront]

theorem isPlain_div (hne : path.text ≠ "") (hplain : path.IsPlain) {name : String}
    (hname : '/' ∉ name.toList) (hup : name ≠ "..") : (path / name).IsPlain := by
  rw [isPlain_iff, steps_div hne hname, List.mem_append, not_or]
  refine ⟨isPlain_iff.1 hplain, fun hmem => hup ?_⟩
  simpa using (List.mem_singleton.1 (List.mem_filter.1 hmem).1).symm

theorem size_div_le (path : Path) (name : String) :
    (path / name).text.utf8ByteSize ≤ path.text.utf8ByteSize + (name.utf8ByteSize + 1) := by
  show (path.join ⟨name⟩).text.utf8ByteSize ≤ _
  unfold join
  split
  · show name.utf8ByteSize ≤ _
    omega
  · split
    · show (path.text ++ name).utf8ByteSize ≤ _
      rw [String.utf8ByteSize_append]
      omega
    · show (path.text ++ "/" ++ name).utf8ByteSize ≤ _
      have hslash : "/".utf8ByteSize = 1 := by decide
      rw [String.utf8ByteSize_append, String.utf8ByteSize_append, hslash]
      omega

theorem isAbsolute_join (habs : path.isAbsolute = true) (other : Path) :
    (path.join other).isAbsolute = true := by
  obtain ⟨cs, hcs⟩ := exists_of_isAbsolute habs
  unfold join
  split
  · assumption
  · split <;> simp [isAbsolute, hcs]

theorem isAbsolute_div (habs : path.isAbsolute = true) (name : String) :
    (path / name).isAbsolute = true :=
  isAbsolute_join habs ⟨name⟩

theorem under_foldl (habs : path.isAbsolute = true) {names : List String}
    (hnames : ∀ name ∈ names, IsName name) :
    names.foldl (fun spelled name => spelled / name) (base.under path) =
      base.under (names.foldl (fun spelled name => spelled / name) path) := by
  induction names generalizing path with
  | nil => rfl
  | cons name names ih =>
    obtain ⟨hname, hnames⟩ := List.forall_mem_cons.1 hnames
    rw [List.foldl_cons, List.foldl_cons, ← under_div habs hname.isAbsolute]
    exact ih (isAbsolute_div habs _) hnames

theorem segments_under (habs : path.isAbsolute = true) :
    path.segments = "" :: path.segments.drop 1 ∧
      (base.under path).segments =
        (pieces base.front).map String.ofList ++ path.segments.drop 1 := by
  obtain ⟨cs, hcs⟩ := exists_of_isAbsolute habs
  have hsegments : path.segments = "" :: (pieces cs).map String.ofList := by
    simp [segments, hcs, pieces]
  refine ⟨by rw [hsegments]; rfl, ?_⟩
  rw [hsegments, segments, toList_under, hcs, pieces_append_slash]
  simp

theorem components_of_isAbsolute (h : path.isAbsolute = true) :
    path.components = .root :: path.segments.filterMap component? := by
  rw [components, if_pos h]
  rfl

/-- A moved path has the components of the base, and then its own behind the root. -/
theorem components_under (hne : base.text ≠ "") (h : path.isAbsolute = true) :
    (base.under path).components = base.components ++ path.segments.filterMap component? := by
  let front := (pieces base.front).map String.ofList
  have hfront : front ≠ [] := by simp [front, pieces_ne_nil]
  have hsilent : component? "" = none := by decide
  have hbase : base.segments.head? = front.head? ∧
      base.segments.filterMap component? = front.filterMap component? := by
    rcases toList_eq_front base with htext | htext
    · rw [segments, htext]
      exact ⟨rfl, rfl⟩
    · rw [segments, htext, pieces_append_slash, List.map_append,
        List.head?_append_of_ne_nil _ hfront, List.filterMap_append]
      simp [front, pieces, hsilent]
  obtain ⟨hpath, hunder⟩ := @segments_under base path h
  have hhead : (base.under path).segments.head? = base.segments.head? := by
    rw [hunder, hbase.1]
    exact List.head?_append_of_ne_nil _ hfront
  have hnames : path.segments.filterMap component? =
      (path.segments.drop 1).filterMap component? := by
    conv => lhs; rw [hpath]
    rw [List.filterMap_cons_none hsilent]
  rw [components, components, hhead, isAbsolute_under hne h, hunder, List.filterMap_append,
    hbase.2, hnames, List.append_assoc]

/-- A name adds one component, and leaves those of the base as they are. -/
theorem components_div (base : Path) {name : String} (h : IsName name) :
    (base / name).components = base.components ++ [.name name] := by
  have hname : component? name = some (.name name) := by
    simp [component?, h.2.1, h.2.2]
  by_cases hempty : base.text = ""
  · obtain rfl : base = ⟨""⟩ := by cases base; exact congrArg Path.mk hempty
    have hjoin : (⟨""⟩ : Path) / name = ⟨name⟩ := by
      show join _ _ = _
      simp [join, h.isAbsolute]
    have hbase : (⟨""⟩ : Path).components = [] := by decide
    have hsegments : (⟨name⟩ : Path).segments = [name] := by
      simp [segments, pieces_of_not_mem h.1]
    rw [hjoin, hbase, components, h.isAbsolute, hsegments]
    simp [h.ne_dot, hname]
  · have hroot : (⟨"/" ++ name⟩ : Path).isAbsolute = true := by simp [isAbsolute]
    have hsegments : (⟨"/" ++ name⟩ : Path).segments = ["", name] := by
      simp [segments, pieces, pieces_of_not_mem h.1]
    show (base.join ⟨name⟩).components = _
    rw [join_eq_under hempty h.isAbsolute, components_under hempty hroot, hsegments]
    simp [hname, show component? "" = none by decide]

end Path

/-! ## 3. A directory that holds a tree -/

namespace Workspace

variable {workspace : Workspace} {base path : Path} {place inside : Location} {inner : FileTree}

/-- What stands below a base is what stands below the root of a tree. -/
structure Holds (workspace : Workspace) (base : Path) (place : Location) (inner : FileTree) :
    Prop where
  located : workspace.locate base = .ok place
  directory : workspace.tree.find? place = some .directory
  below : workspace.tree.below place = inner.below []

namespace Holds

variable (h : workspace.Holds base place inner)

include h

theorem find? (inside : Location) :
    workspace.tree.find? (place ++ inside) = inner.find? inside := by
  cases inside with
  | nil => simpa using h.directory
  | cons name names =>
    refine Option.ext fun entry => ?_
    have hmem : (name :: names, entry) ∈ workspace.tree.below place ↔
        (name :: names, entry) ∈ inner.below [] := by rw [h.below]
    rw [FileTree.mem_below, FileTree.mem_below] at hmem
    simpa using hmem

theorem below_append (inside : Location) :
    workspace.tree.below (place ++ inside) = inner.below inside := by
  have hinner := FileTree.below_append inner [] inside
  rw [List.nil_append] at hinner
  rw [FileTree.below_append, h.below, hinner]

theorem step {segment : String} (hdown : segment ≠ "..") :
    workspace.tree.step (place ++ inside) segment =
      (inner.step inside segment).map (place ++ ·) := by
  unfold FileTree.step
  rw [h.find?]
  cases inner.find? inside with
  | none => rfl
  | some entry =>
    cases entry with
    | file => rfl
    | directory =>
      dsimp only
      rw [if_neg hdown, if_neg hdown]
      split
      · rfl
      · split
        · rfl
        · simp [Except.map]

theorem follow {segments : List String} (hdown : ".." ∉ segments) :
    workspace.tree.follow (place ++ inside) segments =
      (inner.follow inside segments).map (place ++ ·) := by
  induction segments generalizing inside with
  | nil => rfl
  | cons segment segments ih =>
    rw [List.mem_cons, not_or] at hdown
    rw [FileTree.follow_cons, FileTree.follow_cons, h.step (Ne.symm hdown.1)]
    cases inner.step inside segment with
    | error error => rfl
    | ok next => exact ih hdown.2

theorem base_ne : base.text ≠ "" :=
  (pathError?_eq_none_iff.1 (locate_eq_ok.1 h.located).1).2.1

theorem startOf_under (habs : path.isAbsolute = true) :
    workspace.startOf (base.under path) = workspace.startOf base := by
  unfold startOf
  rw [Path.isAbsolute_under h.base_ne habs]

/-- The pieces before the last slash lead to the base. -/
theorem follow_front : workspace.tree.follow (workspace.startOf base)
    ((Path.pieces base.front).map String.ofList) = .ok place := by
  obtain ⟨-, hfollow⟩ := locate_eq_ok.1 h.located
  rcases Path.toList_eq_front base with hbase | hbase
  · rw [Path.segments, hbase] at hfollow
    exact hfollow
  · have hsegments : base.segments = (Path.pieces base.front).map String.ofList ++ [""] := by
      rw [Path.segments, hbase, Path.pieces_append_slash]
      simp [Path.pieces]
    -- the slash at the end of the base leads nowhere further
    rw [hsegments, FileTree.follow_append] at hfollow
    obtain ⟨next, hnext, hlast⟩ := bind_eq_ok.1 hfollow
    have hplace : place = next := by
      have := FileTree.follow_eq_place hlast (by decide)
      simpa [Path.isSilent] using this
    rw [hnext, hplace]

/-- A slash may be left off the end of the base. -/
theorem of_front {other : Path} (hfront : other.front = base.front) (hne : other.text ≠ "")
    (hstart : other.text.toList <+: base.text.toList) : workspace.Holds other place inner := by
  have hpath := pathError?_of_prefix (locate_eq_ok.1 h.located).1 hne hstart
  refine ⟨locate_eq_ok.2 ⟨hpath, ?_⟩, h.directory, h.below⟩
  have hfollow := h.follow_front
  have habs : other.isAbsolute = base.isAbsolute := by
    rw [Path.isAbsolute_eq_front hne, Path.isAbsolute_eq_front h.base_ne, hfront]
  rw [startOf, habs, ← startOf]
  rcases Path.toList_eq_front other with hother | hother
  · rw [Path.segments, hother, hfront]
    exact hfollow
  · rw [Path.segments, hother, hfront, Path.pieces_append_slash, List.map_append,
      FileTree.follow_append, hfollow]
    exact FileTree.follow_slashes (by decide) h.directory

theorem pathError?_under (habs : path.isAbsolute = true) (hfits : (base.under path).IsShort) :
    pathError? (base.under path) = pathError? path := by
  obtain ⟨cs, hcs⟩ := Path.exists_of_isAbsolute habs
  obtain ⟨hnul, -, -⟩ := pathError?_eq_none_iff.1 (locate_eq_ok.1 h.located).1
  have hfront : '\x00' ∉ base.front := by
    rcases Path.toList_eq_front base with hbase | hbase
    · rwa [← hbase]
    · rw [hbase] at hnul
      exact fun hmem => hnul (List.mem_append_left _ hmem)
  have hsize : (base.under path).text.utf8ByteSize =
      (String.ofList base.front).utf8ByteSize + path.text.utf8ByteSize :=
    String.utf8ByteSize_append
  have hne := Path.ne_of_isAbsolute habs
  have hmoved : (base.under path).text ≠ "" := by
    intro heq
    have hlist := congrArg String.toList heq
    rw [Path.toList_under, hcs] at hlist
    simp at hlist
  unfold Path.IsShort at hfits
  have hsame : '\x00' ∈ (base.under path).text.toList ↔ '\x00' ∈ path.text.toList := by
    rw [Path.toList_under, List.mem_append, or_iff_right hfront]
  by_cases hmem : '\x00' ∈ path.text.toList
  · unfold pathError?
    rw [if_pos hmem, if_pos (hsame.2 hmem)]
  · rw [pathError?_eq_none_iff.2 ⟨hmem, hne, by omega⟩,
      pathError?_eq_none_iff.2 ⟨fun h => hmem (hsame.1 h), hmoved, hfits⟩]

/-- A moved path leads to the moved place. -/
theorem locate_under (habs : path.isAbsolute = true) (hplain : path.IsPlain)
    (hfits : (base.under path).IsShort) :
    workspace.locate (base.under path) = (inner.alone.locate path).map (place ++ ·) := by
  obtain ⟨hsegments, hmoved⟩ := @Path.segments_under base path habs
  have hdown := Path.not_mem_segments_of_isPlain hplain
  rw [hsegments, List.mem_cons, not_or] at hdown
  unfold locate
  rw [h.pathError?_under habs hfits]
  cases pathError? path with
  | some error => rfl
  | none =>
    dsimp only
    have hroot : inner.alone.tree.follow (inner.alone.startOf path) path.segments =
        inner.follow [] (path.segments.drop 1) := by
      have hstart : inner.alone.startOf path = [] := if_pos habs
      have hstep : inner.step [] "" = .ok [] := by
        unfold FileTree.step
        rw [FileTree.find?_root]
        rfl
      rw [hstart, hsegments, FileTree.follow_cons]
      show inner.step [] "" >>= _ = _
      rw [hstep]
      rfl
    have hfollow := @follow _ _ _ [] _ h _ hdown.2
    rw [List.append_nil] at hfollow
    rw [hroot, hmoved, FileTree.follow_append, h.startOf_under habs, h.follow_front]
    exact hfollow

end Holds

/-! ## 4. Questions -/

/-- From the base, a path leads where its own leads in the tree by itself, and what is put behind
    the two is the same but for the base. -/
structure Mirrors (workspace : Workspace) (base : Path) (place : Location) (inner : FileTree)
    (path own : Path) : Prop where
  absolute : own.isAbsolute = true
  locate : workspace.locate path = (inner.alone.locate own).map (place ++ ·)
  div : ∀ name : String, (⟨name⟩ : Path).isAbsolute = false → path / name = base.under (own / name)

theorem Holds.mirrors_under (h : workspace.Holds base place inner) (habs : path.isAbsolute = true)
    (hplain : path.IsPlain) (hfits : (base.under path).IsShort) :
    workspace.Mirrors base place inner (base.under path) path :=
  ⟨habs, h.locate_under habs hplain hfits, fun _ hname => (Path.under_div habs hname).symm⟩

/-- The base itself stands for the root. -/
theorem Holds.mirrors_base (h : workspace.Holds base place inner) :
    workspace.Mirrors base place inner base ⟨"/"⟩ := by
  refine ⟨by decide, ?_, fun name hname => ?_⟩
  · rw [h.located, locate_root]
    simp [Except.map]
  · rw [Path.root_div hname]
    exact Path.join_eq_under h.base_ne hname

namespace Mirrors

variable {own : Path} (h : workspace.Holds base place inner)
  (hmirrors : workspace.Mirrors base place inner path own)

include h hmirrors

theorem entryAt : workspace.entryAt path = inner.alone.entryAt own := by
  unfold Workspace.entryAt
  rw [hmirrors.locate]
  cases inner.alone.locate own with
  | error error => rfl
  | ok inside =>
    simp only [Except.map, bind, Except.bind]
    rw [h.find?]
    rfl

theorem contains : workspace.contains path = inner.alone.contains own := by
  unfold Workspace.contains
  rw [hmirrors.entryAt h]

theorem isDirectory : workspace.isDirectory path = inner.alone.isDirectory own := by
  unfold Workspace.isDirectory
  rw [hmirrors.entryAt h]

theorem namesIn : workspace.namesIn path = inner.alone.namesIn own := by
  unfold Workspace.namesIn
  rw [hmirrors.locate]
  cases inner.alone.locate own with
  | error error => rfl
  | ok inside =>
    simp only [Except.map]
    rw [h.find?, h.below_append]
    rfl

omit h in
/-- Names put behind both paths differ by the base only. -/
theorem foldl {name : String} {names : List String} (hname : (⟨name⟩ : Path).isAbsolute = false)
    (hnames : ∀ name ∈ names, Path.IsName name) :
    names.foldl (fun spelled name => spelled / name) (path / name) =
      base.under (names.foldl (fun spelled name => spelled / name) (own / name)) := by
  rw [hmirrors.div name hname]
  exact Path.under_foldl (Path.isAbsolute_div hmirrors.absolute _) hnames

/-- The entries at and below the path are those of its own, moved. -/
theorem walk (hnamed : inner.Named) : workspace.walk path =
    (inner.alone.walk own).map fun entries =>
      (entries.map fun found => (base.under found.1, found.2)).modifyHead
        fun found => (path, found.2) := by
  unfold Workspace.walk
  rw [hmirrors.locate]
  cases inner.alone.locate own with
  | error error => rfl
  | ok inside =>
    -- only the first entry is spelled like the path; all others are the path joined with names
    have hbelow : (inner.below inside).map (fun found =>
          (found.1.foldl (fun spelled name => spelled / name) path, found.2)) =
        ((inner.below inside).map fun found =>
          (found.1.foldl (fun spelled name => spelled / name) own, found.2)).map
            fun found => (base.under found.1, found.2) := by
      rw [List.map_map]
      refine List.map_congr_left fun found hfound => ?_
      obtain ⟨names, entry⟩ := found
      have hne := (FileTree.mem_below.1 hfound).1
      have hnames := hnamed.of_mem hfound
      cases names with
      | nil => exact absurd rfl hne
      | cons name names =>
        obtain ⟨hname, hnames⟩ := List.forall_mem_cons.1 hnames
        simp only [List.foldl_cons, Function.comp_apply]
        rw [hmirrors.foldl hname.isAbsolute hnames]
    simp only [Except.map, bind, Except.bind]
    rw [h.find?, h.below_append, hbelow]
    cases hentry : inner.find? inside with
    | none =>
      rw [show inner.alone.tree.find? inside = none from hentry]
      rfl
    | some entry =>
      rw [show inner.alone.tree.find? inside = some entry from hentry]
      cases entry <;> rfl

end Mirrors

end Workspace

end LocaleCatalog
