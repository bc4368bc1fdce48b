import Mathlib.Data.List.Basic
import LocaleCatalog.Proofs.FileTree.Standing

/-!
# Where directories can be made

`FileAction.makeDirectories` goes up and comes down again, and may fail on either way. It does not
fail where nothing but directories is on the way, the disk refuses none of those that are missing, and
the names are such as a directory can have:

* `Path.Ladder`: the ancestors of a path lose one step after the other (`Path.ladder_ancestors`);
* `FileTree.follow_of_less`: in a tree that has less on the way, steps lead to the same place, or to
  where something is missing;
* `FileTree.Clear` says that on the way to a place each directory stands or can be made,
  `FileTree.Paved` that all of them stand, the place itself among them;
* `FileAction.exists_run_makeDirectoriesFrom`: a clear way can be paved.
-/

namespace LocaleCatalog

/-! ## 1. Ancestors, step by step -/

namespace Path

/-- Paths that lose their last step one after the other, until there is none left. -/
inductive Ladder : List Path → Prop where
  | bottom {path : Path} (h : path.steps = []) : Ladder [path]
  | rung {path above : Path} {more : List Path} (h : above.steps = path.steps.dropLast)
      (hmore : Ladder (above :: more)) : Ladder (path :: above :: more)

/-- The path leads nowhere, or its last piece is a name. -/
def EndsInName (path : Path) : Prop :=
  path.steps = [] ∨ ∃ before name, path.segments = before ++ [name] ∧ isSilent name = false

/-- Silent pieces at the end of a spelling lead nowhere. -/
theorem filter_reverse_dropWhile (backwards : List String) :
    (backwards.dropWhile isSilent).reverse.filter (fun segment => !isSilent segment) =
      backwards.reverse.filter fun segment => !isSilent segment := by
  induction backwards with
  | nil => rfl
  | cons segment backwards ih =>
    rw [List.dropWhile_cons]
    split
    · rename_i hsilent
      rw [ih, List.reverse_cons, List.filter_append]
      simp [hsilent]
    · rfl

theorem ladder_ancestorsOf {start : String} {backwards : List String} {path : Path}
    (hfits : Fits start backwards.reverse) (hslash : ∀ s ∈ backwards.reverse, '/' ∉ s.toList)
    (hsteps : path.steps = backwards.reverse.filter fun segment => !isSilent segment) :
    Ladder (path :: ancestorsOf start backwards) := by
  fun_induction ancestorsOf start backwards generalizing path with
  | case1 backwards hnil hdot =>
    have hnone : path.steps = [] := by
      rw [hsteps, ← filter_reverse_dropWhile, hnil]
      rfl
    exact .rung (by rw [hnone]; decide) (.bottom (by decide))
  | case2 backwards hnil hdot =>
    refine .bottom ?_
    rw [hsteps, ← filter_reverse_dropWhile, hnil]
    rfl
  | case3 backwards last rest hcons hlt ih =>
    obtain ⟨hlast, lost, -, hrev⟩ := reverse_eq_of_dropWhile hcons
    have hpre : (rest.dropWhile isSilent).reverse <+: backwards.reverse := ⟨lost, hrev.symm⟩
    have hslash' : ∀ s ∈ (rest.dropWhile isSilent).reverse, '/' ∉ s.toList :=
      fun s hs => hslash s (hpre.subset hs)
    have habove := steps_ofSpelling (hfits.take hpre) hslash'
    refine .rung ?_ (ih (hfits.take hpre) hslash' habove)
    rw [habove, hsteps, ← filter_reverse_dropWhile backwards, hcons, filter_reverse_dropWhile,
      List.reverse_cons, List.filter_append]
    simp [hlast]

/-- Each ancestor of a path has one step less than the one below it. -/
theorem ladder_ancestors (path : Path) : Ladder (path :: path.ancestors) := by
  obtain ⟨hfits, hsteps, hslash, -⟩ := path.spelling_spec
  refine ladder_ancestorsOf ?_ ?_ ?_ <;> rw [List.reverse_reverse]
  · exact hfits
  · exact hslash
  · exact hsteps.symm

/-- A path that is spelled without silent pieces at its end ends in a name. -/
theorem endsInName_ofSpelling {start : String} {segments : List String}
    (hfits : Fits start segments) (hslash : ∀ s ∈ segments, '/' ∉ s.toList)
    (hlast : ∀ s, segments.getLast? = some s → isSilent s = false) :
    (ofSpelling start segments).EndsInName := by
  rcases List.eq_nil_or_concat' segments with rfl | ⟨before, name, rfl⟩
  · exact .inl (steps_ofSpelling hfits hslash)
  have hname : isSilent name = false := hlast name (by simp)
  have hone : start = "/" ∨ '/' ∉ start.toList ∧ (before = [] → start = "") := by
    generalize hsegments : before ++ [name] = segments at hfits
    cases hfits with
    | root => exact .inl rfl
    | dot => simp at hsegments
    | dotSlash rest =>
      refine .inr ⟨by decide, ?_⟩
      rintro rfl
      obtain ⟨rfl, -⟩ := List.cons.inj hsegments
      exact absurd hname (by decide)
    | empty => exact .inr ⟨by decide, fun _ => rfl⟩
    | name => exact .inr ⟨by decide, fun _ => rfl⟩
  right
  rcases hone with rfl | ⟨hstart, hempty⟩
  · rw [segments_ofSpelling_root hslash]
    exact ⟨"" :: before, name, by simp, hname⟩
  · rw [segments_ofSpelling_of_not_mem hstart hslash, if_neg (by simp)]
    cases before with
    | nil =>
      rw [hempty rfl]
      exact ⟨[], name, by simp, hname⟩
    | cons first before => exact ⟨(start ++ first) :: before, name, by simp, hname⟩

theorem endsInName_of_mem_ancestors {above path : Path} (h : above ∈ path.ancestors) :
    above.EndsInName := by
  obtain ⟨hfits, -, hslash, -⟩ := path.spelling_spec
  rcases mem_ancestorsOf h with ⟨-, rfl⟩ | ⟨kept, lost, hrev, -, hname, rfl⟩
  · exact .inl (by decide)
  · rw [List.reverse_reverse] at hrev
    have hpre : kept <+: path.spelling.2 := ⟨lost, hrev.symm⟩
    exact endsInName_ofSpelling (hfits.take hpre) (fun s hs => hslash s (hpre.subset hs)) hname

end Path

/-! ## 2. Trees with less in them -/

namespace FileTree

variable {tree tree' : FileTree} {place goal on : Location} {segment : String}
  {segments : List String}

/-- Directories stand from a start to a goal, both among them. -/
def Paved (tree : FileTree) (start goal : Location) : Prop :=
  ∀ on, start <+: on → on <+: goal → tree.find? on = some .directory

/-- A directory stands at the place, or one can be made there. -/
def Passable (tree : FileTree) (place : Location) : Prop :=
  tree.find? place = some .directory ∨ tree.find? place = none ∧ tree.refusals place = none

/-- A directory stands at the start, and on the way from there to a goal it stands or can be made. -/
structure Clear (tree : FileTree) (start goal : Location) : Prop where
  directory : tree.find? start = some .directory
  way : ∀ on, start <+: on → on <+: goal → on ≠ goal → tree.Passable on

/-- What was passable still is, if nothing was written there and no more is refused. -/
theorem Passable.of_changed {written reached : Set Location} {before after : Workspace}
    {place : Location} (h : before.tree.Passable place)
    (hchanged : Workspace.Changed written reached before after) (hplace : place ∉ written)
    (hnoStricter : Workspace.NoStricter before after) : after.tree.Passable place := by
  rcases hchanged.elsewhere place hplace with hsame | ⟨-, hdir, -⟩
  · rw [Passable, hsame]
    exact h.imp_right fun ⟨hnone, hallowed⟩ => ⟨hnone, hnoStricter.refusals place hallowed⟩
  · exact .inl hdir

theorem Clear.mono {start goal' : Location} (h : tree.Clear start goal) (hon : goal' <+: goal) :
    tree.Clear start goal' := by
  refine ⟨h.directory, fun on hbehind hon' hne => h.way on hbehind (hon'.trans hon) ?_⟩
  rintro rfl
  exact hne (hon'.eq_of_length_le hon.length_le)

/-- Steps that do not go up lead through directories. -/
theorem find?_on_way (h : tree.follow place segments = .ok goal) (hup : ".." ∉ segments)
    (hbehind : place <+: on) (hon : on <+: goal) (hne : on ≠ goal) :
    tree.find? on = some .directory := by
  induction segments generalizing place with
  | nil =>
    cases h
    exact absurd (hon.eq_of_length_le hbehind.length_le) hne
  | cons segment segments ih =>
    by_cases heq : place = on
    · rw [← heq]
      exact find?_of_follow h (List.cons_ne_nil _ _)
    · rw [List.mem_cons, not_or] at hup
      rw [follow_cons] at h
      obtain ⟨next, hstep, hfollow⟩ := bind_eq_ok.1 h
      obtain ⟨-, hnext⟩ := step_eq_ok hstep (Ne.symm hup.1)
      have hgoal : next <+: goal := follow_eq_place hfollow hup.2 ▸ List.prefix_append _ _
      -- one step does not lead further than to `on`
      have hlonger : place.length < on.length :=
        lt_of_le_of_ne hbehind.length_le fun hlength => heq (hbehind.eq_of_length hlength)
      have hshort : next.length ≤ place.length + 1 := by
        rw [hnext, List.length_append]
        exact Nat.add_le_add_left (List.length_filter_le _ _) _
      exact ih hfollow hup.2 (List.prefix_of_prefix_length_le hgoal hon (by omega))

/-- In a tree that has less on the way, steps lead to the same end, or to where something is
    missing. -/
theorem follow_of_less (hup : ".." ∉ segments)
    (hless : ∀ on, place <+: on →
      on <+: place ++ segments.filter (fun segment => !Path.isSilent segment) →
      tree'.find? on = tree.find? on ∨ tree'.find? on = none) :
    tree'.follow place segments = tree.follow place segments ∨
      tree'.follow place segments = .error .notFound := by
  induction segments generalizing place with
  | nil => exact .inl rfl
  | cons segment segments ih =>
    rw [List.mem_cons, not_or] at hup
    rw [follow_cons, follow_cons]
    rcases hless place (List.prefix_refl _) (List.prefix_append _ _) with hsame | hnone
    · rw [step_congr hsame]
      cases hstep : tree.step place segment with
      | error error => exact .inl rfl
      | ok next =>
        obtain ⟨-, rfl⟩ := step_eq_ok hstep (Ne.symm hup.1)
        refine ih hup.2 fun on hbehind hon => ?_
        rw [List.append_assoc, ← List.filter_append] at hon
        exact hless on ((List.prefix_append _ _).trans hbehind) hon
    · have hmissing : tree'.step place segment = .error .notFound := by
        unfold step
        rw [hnone]
      rw [hmissing]
      exact .inr rfl

end FileTree

/-! ## 3. What a change is aimed at -/

namespace FileAction

variable {workspace other : Workspace} {path : Path} {aim : Target} {error : IoError}

/-- What is named lies where the pieces before its name lead, in every workspace. -/
theorem target_eq_of_named (h : target path other = .ok aim) (hnamed : aim.named = true) :
    ∃ before last parent, path.steps = before.filter (fun s => !Path.isSilent s) ++ [last] ∧
      before ⊆ path.segments ∧ last ≠ ".." ∧
      other.tree.follow (other.startOf path) before = .ok parent ∧
      other.tree.step parent last = .ok aim.place ∧ aim.place = parent ++ [last] ∧
      ∀ workspace : Workspace, target path workspace =
        (workspace.tree.follow (workspace.startOf path) before >>= fun parent =>
          workspace.tree.step parent last).map fun place => ⟨place, true, aim.slash⟩ := by
  cases hpath : Workspace.pathError? path with
  | some error =>
    rw [target_of_pathError hpath] at h
    cases h
  | none =>
    rcases segments_cases path with hslashes | ⟨before, last, slashes, hsegments, hlast, hslashes⟩
    · rw [target_of_slashes hpath hslashes] at h
      cases h
      cases hnamed
    · have htarget (workspace : Workspace) : target path workspace = _ :=
        target_eq_of_segments hpath hsegments hlast hslashes
      rw [htarget other, FileTree.follow_append] at h
      obtain ⟨place, hplace, rfl⟩ := map_eq_ok.1 h
      obtain ⟨parent, hparent, hstep⟩ := bind_eq_ok.1 hplace
      have hname : last ≠ "." ∧ last ≠ ".." := of_decide_eq_true hnamed
      have hsolid : Path.isSilent last = false := by simp [Path.isSilent, hlast, hname.1]
      have hone (tree : FileTree) (place : Location) :
          tree.follow place [last] = tree.step place last := by
        rw [FileTree.follow_cons]
        cases tree.step place last <;> rfl
      rw [hone] at hstep
      obtain ⟨-, hend⟩ := FileTree.step_eq_ok hstep hname.2
      refine ⟨before, last, parent, ?_, ?_, hname.2, hparent, hstep, ?_, fun workspace => ?_⟩
      · have hsilent : slashes.filter (fun s => !Path.isSilent s) = [] := by
          rw [List.filter_eq_nil_iff]
          intro s hs
          simp [hslashes s hs, Path.isSilent]
        rw [Path.steps, hsegments, List.filter_append, List.filter_cons_of_pos (by simp [hsolid]),
          hsilent]
      · rw [hsegments]
        exact List.subset_append_left _ _
      · simpa [hsolid] using hend
      · rw [htarget workspace, FileTree.follow_append, decide_eq_true hname]
        simp only [hone]

section Named

variable (h : target path other = .ok aim) (hnamed : aim.named = true) (hplain : path.IsPlain)
  (hcurrent : workspace.current = other.current)

include h hnamed hplain

/-- What is named lies in directories. -/
theorem find?_above_target {on : Location} (hbehind : other.startOf path <+: on)
    (hon : on <+: aim.place) (hne : on ≠ aim.place) : other.tree.find? on = some .directory := by
  obtain ⟨before, last, parent, -, hsegments, hlast, hparent, hstep, hplace, -⟩ :=
    target_eq_of_named h hnamed
  have hup : ".." ∉ before := fun hmem =>
    Path.not_mem_segments_of_isPlain hplain (hsegments hmem)
  rw [hplace, List.prefix_concat_iff] at hon
  have hon' := hon.resolve_left (hplace ▸ hne)
  by_cases heq : on = parent
  · rw [heq]
    exact (FileTree.step_eq_ok hstep hlast).1
  · exact FileTree.find?_on_way hparent hup hbehind hon' heq

include hcurrent

/-- A change is aimed at a name wherever the directories above it stand. -/
theorem target_of_paved
    (hpaved : ∀ on, workspace.startOf path <+: on → on <+: aim.place → on ≠ aim.place →
      workspace.tree.find? on = some .directory) : target path workspace = .ok aim := by
  obtain ⟨before, last, parent, -, hsegments, -, hparent, hstep, hplace, htarget⟩ :=
    target_eq_of_named h hnamed
  have hup : ".." ∉ before := fun hmem =>
    Path.not_mem_segments_of_isPlain hplain (hsegments hmem)
  have hstart : workspace.startOf path = other.startOf path := by
    unfold Workspace.startOf
    rw [hcurrent]
  have hbehind : other.startOf path <+: parent :=
    FileTree.follow_eq_place hparent hup ▸ List.prefix_append _ _
  have habove : ∀ on, other.startOf path <+: on → on <+: parent →
      workspace.tree.find? on = some .directory := by
    intro on hbehind hon
    have hlength := hon.length_le
    refine hpaved on (hstart ▸ hbehind) (hplace ▸ hon.trans (List.prefix_append _ _)) ?_
    rintro rfl
    rw [hplace, List.length_append, List.length_singleton] at hlength
    omega
  rw [htarget workspace, hstart,
    FileTree.follow_of_directories hparent hup fun on hbehind hon _ => habove on hbehind hon]
  simp only [bind, Except.bind]
  rw [FileTree.step_of_directory hstep (habove parent hbehind (List.prefix_refl _)), ← hnamed]
  rfl

/-- Where the way is clear, a change is aimed at a name, or something above it is missing. -/
theorem target_of_clear (hclear : workspace.tree.Clear (workspace.startOf path) aim.place) :
    target path workspace = .ok aim ∨ target path workspace = .error .notFound := by
  obtain ⟨before, last, parent, -, hsegments, -, hparent, hstep, hplace, htarget⟩ :=
    target_eq_of_named h hnamed
  have hup : ".." ∉ before := fun hmem =>
    Path.not_mem_segments_of_isPlain hplain (hsegments hmem)
  have hstart : workspace.startOf path = other.startOf path := by
    unfold Workspace.startOf
    rw [hcurrent]
  rw [hstart] at hclear
  have hend := FileTree.follow_eq_place hparent hup
  -- above the name stand directories or nothing
  have hless : ∀ on, other.startOf path <+: on → on <+: parent →
      workspace.tree.find? on = other.tree.find? on ∨ workspace.tree.find? on = none := by
    intro on hbehind hon
    have hlength := hon.length_le
    have hne : on ≠ aim.place := by
      rintro rfl
      rw [hplace, List.length_append, List.length_singleton] at hlength
      omega
    have hon' : on <+: aim.place := hplace ▸ hon.trans (List.prefix_append _ _)
    rw [find?_above_target h hnamed hplain hbehind hon' hne]
    exact (hclear.way on hbehind hon' hne).imp_right And.left
  rw [htarget workspace, hstart]
  rcases FileTree.follow_of_less hup fun on hbehind hon => hless on hbehind (hend ▸ hon) with
    hsame | hmissing
  · rw [hsame, hparent]
    simp only [bind, Except.bind]
    rcases hless parent (hend ▸ List.prefix_append _ _) (List.prefix_refl _) with hfound | hnone
    · rw [FileTree.step_congr hfound, hstep, ← hnamed]
      exact .inl rfl
    · have hmissing : workspace.tree.step parent last = .error .notFound := by
        unfold FileTree.step
        rw [hnone]
      rw [hmissing]
      exact .inr rfl
  · rw [hmissing]
    exact .inr rfl

end Named

/-! ## 4. Making directories -/

/-- Where a change is aimed at a passable place, a directory is made or stands already. -/
theorem run_makeDirectory_of_target (h : target path workspace = .ok aim)
    (hpass : workspace.tree.Passable aim.place) :
    (workspace.tree.find? aim.place = none ∧ runIn (makeDirectory path) workspace =
      (.ok (), ⟨workspace.tree.insert aim.place .directory, workspace.current⟩)) ∨
    (workspace.isDirectory path = true ∧
      runIn (makeDirectory path) workspace = (.error .alreadyExists, workspace)) := by
  rw [run_makeDirectory, h]
  dsimp only
  rcases hpass with hdir | ⟨hnone, hallowed⟩
  · obtain ⟨slashes, hslashes, -, hlocate⟩ := locate_of_target h
    rw [FileTree.follow_slashes hslashes hdir] at hlocate
    exact .inr ⟨Workspace.isDirectory_iff.2 ⟨_, hlocate, hdir⟩, by rw [hdir]; rfl⟩
  · exact .inl ⟨hnone, by rw [hnone, hallowed]; rfl⟩

end FileAction

namespace Workspace

variable {workspace other : Workspace} {path : Path} {start goal : Location}

/-- The way to a directory is made of directories. -/
theorem paved_of_isDirectory (h : workspace.isDirectory path = true) (hplain : path.IsPlain) :
    workspace.tree.Paved (workspace.startOf path) (path.placeFrom workspace.current) := by
  obtain ⟨place, hlocate, hdir⟩ := isDirectory_iff.1 h
  have hplace := locate_eq_place hlocate hplain
  intro on hbehind hon
  rw [← hplace] at hon
  by_cases heq : on = place
  · rw [heq, hdir]
  · exact FileTree.find?_on_way (locate_eq_ok.1 hlocate).2
      (Path.not_mem_segments_of_isPlain hplain) hbehind hon heq

/-- A path that leads nowhere names the directory where it starts. -/
theorem isDirectory_of_steps_eq_nil (hpath : pathError? path = none) (hsteps : path.steps = [])
    (hstart : workspace.tree.find? (workspace.startOf path) = some .directory) :
    workspace.isDirectory path = true := by
  have hsilent : ∀ s ∈ path.segments, Path.isSilent s = true := by
    intro s hs
    have := List.filter_eq_nil_iff.1 hsteps s hs
    simpa using this
  exact isDirectory_iff.2 ⟨_, locate_eq_ok.2 ⟨hpath, FileTree.follow_of_silent hsilent hstart⟩,
    hstart⟩

/-- What lies on the way to a path, and before it, lies on the way to the path without its last
    step. -/
theorem prefix_above {above : Path} {on : Location}
    (hstart : workspace.startOf above = workspace.startOf path)
    (hsteps : above.steps = path.steps.dropLast) (hne : path.steps ≠ [])
    (hon : on <+: path.placeFrom workspace.current)
    (hlower : on ≠ path.placeFrom workspace.current) : on <+: above.placeFrom workspace.current := by
  have hplace : path.placeFrom workspace.current =
      above.placeFrom workspace.current ++ [path.steps.getLast hne] := by
    show workspace.startOf path ++ path.steps = workspace.startOf above ++ above.steps ++ _
    rw [hstart, hsteps, List.append_assoc, List.dropLast_append_getLast]
  rw [hplace, List.prefix_concat_iff] at hon
  exact hon.resolve_left (hplace ▸ hlower)

/-- The path names a directory on the way to a goal, or can name one. -/
structure Towards (workspace : Workspace) (start goal : Location) (path : Path) : Prop where
  plain : path.IsPlain
  ends : path.EndsInName
  on : path.placeFrom workspace.current <+: goal
  lower : path.placeFrom workspace.current ≠ goal
  nameable : ∃ other : Workspace, other.current = workspace.current ∧ other.isDirectory path = true

theorem Towards.pathError? (h : workspace.Towards start goal path) :
    Workspace.pathError? path = none := by
  obtain ⟨other, -, hdir⟩ := h.nameable
  obtain ⟨place, hlocate, -⟩ := isDirectory_iff.1 hdir
  exact (locate_eq_ok.1 hlocate).1

/-- What a path to a directory is aimed at where the directory stands. -/
theorem Towards.exists_target (h : workspace.Towards start goal path) (hsteps : path.steps ≠ []) :
    ∃ other aim, other.current = workspace.current ∧ FileAction.target path other = .ok aim ∧
      aim.named = true ∧ aim.place = path.placeFrom workspace.current := by
  obtain ⟨other, hcurrent, hdir⟩ := h.nameable
  obtain ⟨place, hlocate, -⟩ := isDirectory_iff.1 hdir
  obtain ⟨before, name, hsegments, hname⟩ := h.ends.resolve_left hsteps
  have hempty : name ≠ "" ∧ name ≠ "." := by simpa [Path.isSilent] using hname
  have hup : name ≠ ".." := by
    rintro rfl
    exact Path.not_mem_segments_of_isPlain h.plain (by simp [hsegments])
  have htarget : FileAction.target path other = _ :=
    FileAction.target_eq_of_segments (locate_eq_ok.1 hlocate).1 hsegments hempty.1
      fun s hs => absurd hs List.not_mem_nil
  have hfollow := (locate_eq_ok.1 hlocate).2
  rw [hsegments] at hfollow
  rw [hfollow] at htarget
  refine ⟨other, _, hcurrent, htarget, decide_eq_true ⟨hempty.2, hup⟩, ?_⟩
  rw [← hcurrent]
  exact locate_eq_place hlocate h.plain

end Workspace

namespace FileAction

open Workspace (Changed Heeded)

variable {workspace other : Workspace} {path : Path} {start goal : Location}

/-- Directories are made from a path by making it, or by going up first and then making it. -/
theorem run_makeDirectoriesFrom_cons {ancestors : List Path} (hne : path.text ≠ "") :
    runIn (makeDirectoriesFrom (path :: ancestors)) workspace =
      match runIn (makeDirectory path) workspace with
      | (.ok (), after) => (.ok (), after)
      | (.error .notFound, between) =>
        match runIn (makeDirectoriesFrom ancestors) between with
        | (.error error, between) => (.error error, between)
        | (.ok (), between) =>
          match runIn (makeDirectory path) between with
          | (.ok (), after) => (.ok (), after)
          | (.error error, after) =>
            if after.isDirectory path then (.ok (), after) else (.error error, after)
      | (.error error, after) =>
        if after.isDirectory path then (.ok (), after) else (.error error, after) := by
  rw [makeDirectoriesFrom, if_neg hne, run_bind, run_outcome]
  rcases runIn (makeDirectory path) workspace with ⟨made, between⟩
  cases made with
  | ok => rfl
  | error error =>
    cases error with
    | notFound =>
      dsimp only
      rw [run_bind]
      rcases runIn (makeDirectoriesFrom ancestors) between with ⟨above, between⟩
      cases above with
      | error error => rfl
      | ok =>
        dsimp only
        rw [run_bind, run_outcome]
        rcases runIn (makeDirectory path) between with ⟨made, after⟩
        cases made with
        | ok => rfl
        | error error => exact run_forgive path error after
    | _ => exact run_forgive path _ between

/-- Nothing has to be made where a directory stands. -/
theorem run_makeDirectoriesFrom_of_stands (ancestors : List Path)
    (hstart : workspace.tree.find? (workspace.startOf path) = some .directory)
    (hplain : path.text ≠ "" → path.IsPlain)
    (h : path.text = "" ∨ workspace.isDirectory path = true) :
    runIn (makeDirectoriesFrom (path :: ancestors)) workspace = (.ok (), workspace) ∧
      workspace.tree.Paved (workspace.startOf path) (path.placeFrom workspace.current) := by
  by_cases hempty : path.text = ""
  · refine ⟨by rw [makeDirectoriesFrom, if_pos hempty]; rfl, fun on hbehind hon => ?_⟩
    obtain rfl : path = ⟨""⟩ := by cases path; cases hempty; rfl
    have hend : (⟨""⟩ : Path).placeFrom workspace.current = workspace.startOf ⟨""⟩ :=
      List.append_nil _
    rw [hend] at hon
    rw [hon.eq_of_length_le hbehind.length_le]
    exact hstart
  · have hdir := h.resolve_left hempty
    exact ⟨run_makeDirectoriesFrom_of_isDirectory hdir,
      Workspace.paved_of_isDirectory hdir (hplain hempty)⟩

/-- A directory put at the end of a way that is paved up to there. -/
theorem paved_insert {tree : FileTree} {place : Location}
    (h : ∀ on, start <+: on → on <+: place → on ≠ place → tree.find? on = some .directory) :
    (tree.insert place .directory).Paved start place := by
  intro on hbehind hon
  by_cases hroot : on = []
  · rw [hroot]
    exact FileTree.find?_root _
  by_cases heq : on = place
  · subst heq
    exact FileTree.find?_insert_self hroot
  · rw [FileTree.find?_insert_of_ne heq]
    exact h on hbehind hon heq

/-- With a directory made, or standing already, the whole way is paved. -/
theorem paved_of_target {aim : Target} (h : target path workspace = .ok aim)
    (hnamed : aim.named = true) (hplain : path.IsPlain)
    (hpass : workspace.tree.Passable aim.place) :
    ∃ after, after.tree.Paved (workspace.startOf path) aim.place ∧
      (runIn (makeDirectory path) workspace = (.ok (), after) ∨
        (runIn (makeDirectory path) workspace = (.error .alreadyExists, after) ∧
          after.isDirectory path = true)) := by
  rcases run_makeDirectory_of_target h hpass with ⟨-, hmake⟩ | ⟨hdir, hmake⟩
  · exact ⟨_, paved_insert fun on hbehind hon hne =>
      find?_above_target h hnamed hplain hbehind hon hne, .inl hmake⟩
  · refine ⟨workspace, ?_, .inr ⟨hmake, hdir⟩⟩
    rw [target_eq_place h hplain]
    exact Workspace.paved_of_isDirectory hdir hplain

/-- A clear way can be paved: all directories on it stand or can be made. -/
theorem exists_run_makeDirectoriesFrom {paths : List Path} (hladder : Path.Ladder paths)
    (hstart : ∀ path ∈ paths, workspace.startOf path = start)
    (hpaths : ∀ path ∈ paths, path.text ≠ "" → workspace.Towards start goal path)
    (hclear : workspace.tree.Clear start goal) :
    ∃ after, runIn (makeDirectoriesFrom paths) workspace = (.ok (), after) ∧
      ∀ path, paths.head? = some path →
        after.tree.Paved start (path.placeFrom workspace.current) := by
  induction hladder with
  | @bottom path hsteps =>
    have hmem := List.mem_singleton_self path
    have hstart' := hstart path hmem
    have hdirectory : workspace.tree.find? (workspace.startOf path) = some .directory :=
      hstart' ▸ hclear.directory
    have hstands : path.text = "" ∨ workspace.isDirectory path = true := by
      refine or_iff_not_imp_left.2 fun hne => ?_
      exact Workspace.isDirectory_of_steps_eq_nil (hpaths path hmem hne).pathError? hsteps hdirectory
    obtain ⟨hrun, hpaved⟩ := run_makeDirectoriesFrom_of_stands [] hdirectory
      (fun hne => (hpaths path hmem hne).plain) hstands
    refine ⟨workspace, hrun, fun first hfirst => ?_⟩
    cases hfirst
    exact hstart' ▸ hpaved
  | @rung path above more hsteps _ ih =>
    have hmem : path ∈ path :: above :: more := List.mem_cons_self
    have hstart' := hstart path hmem
    have hstartAbove := hstart above (List.mem_cons_of_mem _ List.mem_cons_self)
    have hdirectory : workspace.tree.find? (workspace.startOf path) = some .directory :=
      hstart' ▸ hclear.directory
    by_cases hstands : path.text = "" ∨ workspace.isDirectory path = true
    · obtain ⟨hrun, hpaved⟩ := run_makeDirectoriesFrom_of_stands (above :: more) hdirectory
        (fun hne => (hpaths path hmem hne).plain) hstands
      refine ⟨workspace, hrun, fun first hfirst => ?_⟩
      cases hfirst
      exact hstart' ▸ hpaved
    · rw [not_or] at hstands
      have htowards := hpaths path hmem hstands.1
      have hsome : path.steps ≠ [] := fun hnone =>
        hstands.2 (Workspace.isDirectory_of_steps_eq_nil htowards.pathError? hnone hdirectory)
      obtain ⟨other, aim, hcurrent, htarget, hnamed, hplace⟩ := htowards.exists_target hsome
      have hpass : workspace.tree.Passable aim.place := by
        rw [hplace]
        exact hclear.way _ (hstart' ▸ List.prefix_append _ _) htowards.on htowards.lower
      have hbelow : workspace.tree.Clear (workspace.startOf path) aim.place := by
        rw [hstart', hplace]
        exact hclear.mono htowards.on
      rw [run_makeDirectoriesFrom_cons hstands.1]
      rcases target_of_clear htarget hnamed htowards.plain hcurrent.symm hbelow with
        hready | hmissing
      · obtain ⟨after, hpaved, hmake | ⟨hmake, hdir⟩⟩ :=
          paved_of_target hready hnamed htowards.plain hpass
        all_goals
          rw [hstart', hplace] at hpaved
          refine ⟨after, ?_, fun first hfirst => by cases hfirst; exact hpaved⟩
        · rw [hmake]
        · rw [hmake]
          exact if_pos hdir
      · -- the directories above the path come first
        obtain ⟨between, hrun, habove⟩ := ih
          (fun other hother => hstart other (List.mem_cons_of_mem _ hother))
          fun other hother => hpaths other (List.mem_cons_of_mem _ hother)
        have hchanged : Changed ∅ {goal} workspace between := by
          have hwithin : Within workspace.current ∅ {goal} (makeDirectoriesFrom (above :: more)) :=
            within_makeDirectoriesFrom (Set.mem_singleton goal) fun other hother hne =>
              have hother' := hpaths other (List.mem_cons_of_mem _ hother) hne
              ⟨hother'.plain, hother'.on, hother'.lower⟩
          exact hwithin.changed hrun
        have hbetween : between.startOf path = start := by
          rw [← hstart']
          unfold Workspace.startOf
          rw [hchanged.current]
        have hready : target path between = .ok aim := by
          refine target_of_paved htarget hnamed htowards.plain
            (hchanged.current.trans hcurrent.symm) fun on hbehind hon hne => ?_
          rw [hplace] at hon hne
          exact habove above rfl on (hbetween ▸ hbehind)
            (Workspace.prefix_above (hstartAbove.trans hstart'.symm) hsteps hsome hon hne)
        have hmake' : runIn (makeDirectory path) workspace = (.error .notFound, workspace) := by
          rw [run_makeDirectory, hmissing]
        have hheeded : Moves Heeded (makeDirectoriesFrom (above :: more)) :=
          moves_makeDirectoriesFrom fun other _ _ => Changes.makeDirectory other
        have hpass' : between.tree.Passable aim.place :=
          hpass.of_changed hchanged (Set.notMem_empty _) (hheeded.of_run hrun).noStricter
        rw [hmake']
        dsimp only
        rw [hrun]
        dsimp only
        obtain ⟨after, hpaved, hmake | ⟨hmake, hdir⟩⟩ :=
          paved_of_target hready hnamed htowards.plain hpass'
        all_goals
          rw [hbetween, hplace] at hpaved
          refine ⟨after, ?_, fun first hfirst => by cases hfirst; exact hpaved⟩
        · rw [hmake]
        · rw [hmake]
          exact if_pos hdir

end FileAction

end LocaleCatalog
