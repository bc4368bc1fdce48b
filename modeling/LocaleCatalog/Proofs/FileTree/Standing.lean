import LocaleCatalog.Proofs.FileTree.Refusal

/-!
# Changing files that stand already

A change may fail for many reasons. Where a file can be read already, only the disk can refuse it:

* `Workspace.isDirectory_of_mem_ancestors`: the ancestors of a path that can be followed are
  directories, so none has to be made (`FileAction.run_makeDirectories_of_isDirectory`);
* `FileAction.target_of_readBytes`: a change of such a file is aimed at its place and its name;
* `FileAction.run_writeBytes_of_target`: it is overwritten, or the disk refuses that. If the disk
  accepts it, it can be overwritten (`FileAction.run_writeBytes_of_readBytes`), and nothing is changed
  if it is overwritten with what it holds (`FileAction.run_writeBytes_self`);
* `FileAction.run_removeFile_of_readBytes`, `FileAction.run_removeFile_of_notFound`: it can be taken
  away, and where nothing is found nothing is taken away.
-/

namespace LocaleCatalog

/-! ## 1. The directories above a file -/

namespace Workspace

variable {workspace : Workspace} {above path : Path} {place : Location}

theorem pathError?_eq_none_iff : pathError? path = none ↔
    '\x00' ∉ path.text.toList ∧ path.text ≠ "" ∧ path.text.utf8ByteSize ≤ longestPath := by
  unfold pathError?
  split
  · simp_all
  · split
    · simp_all
    · split <;> simp_all

/-- The start of a text is no longer than the text. -/
theorem size_le_of_isStart {start text : String} (h : start.toList <+: text.toList) :
    start.utf8ByteSize ≤ text.utf8ByteSize := by
  obtain ⟨more, hmore⟩ := h
  have htext : text = start ++ String.ofList more := by
    apply String.toList_injective
    rw [String.toList_append, String.toList_ofList, hmore]
  rw [htext, String.utf8ByteSize_append]
  exact Nat.le_add_right _ _

/-- Nothing is wrong with the start of a path if nothing is wrong with the path. -/
theorem pathError?_of_prefix (hpath : pathError? path = none) (hne : above.text ≠ "")
    (h : above.text.toList <+: path.text.toList) : pathError? above = none := by
  rw [pathError?_eq_none_iff] at hpath ⊢
  obtain ⟨hnul, -, hlong⟩ := hpath
  exact ⟨fun hmem => hnul (h.subset hmem), hne, le_trans (size_le_of_isStart h) hlong⟩

/-- The root is a directory wherever paths start from. -/
theorem locate_root : workspace.locate ⟨"/"⟩ = .ok [] := by
  have hsegments : (⟨"/"⟩ : Path).segments = ["", ""] := by decide
  have hstart : workspace.startOf ⟨"/"⟩ = [] := if_pos (by decide)
  refine locate_eq_ok.2 ⟨by decide, ?_⟩
  rw [hsegments, hstart]
  exact FileTree.follow_slashes (by decide) (FileTree.find?_root _)

/-- The ancestors of a path that can be followed are directories. -/
theorem isDirectory_of_mem_ancestors (hlocate : workspace.locate path = .ok place)
    (h : above ∈ path.ancestors) (hne : above.text ≠ "") : workspace.isDirectory above = true := by
  obtain ⟨hpath, hfollow⟩ := locate_eq_ok.1 hlocate
  rw [isDirectory_iff]
  rcases Path.segments_of_mem_ancestors h with hempty | rfl | ⟨rest, hrest, hsegments⟩
  · exact absurd hempty hne
  · exact ⟨[], locate_root, FileTree.find?_root _⟩
  · -- the way to the ancestor is the first part of the way to the path
    rw [hsegments, FileTree.follow_append] at hfollow
    obtain ⟨on, hon, hmore⟩ := bind_eq_ok.1 hfollow
    have hstart : workspace.startOf above = workspace.startOf path := by
      unfold startOf
      rw [(Path.steps_of_mem_ancestors h).1]
    refine ⟨on, locate_eq_ok.2 ⟨?_, hstart ▸ hon⟩, FileTree.find?_of_follow hmore hrest⟩
    exact pathError?_of_prefix hpath hne (Path.text_prefix_of_segments hsegments)

end Workspace

namespace FileAction

variable {workspace : Workspace} {path : Path} {place : Location} {aim : Target} {old : ByteArray}

/-! ## 2. What a change is aimed at -/

/-- Where a path names something, something stands before the slashes at its end. -/
theorem isSome_find?_of_target (h : target path workspace = .ok aim)
    (hlocate : workspace.locate path = .ok place)
    (hsome : (workspace.tree.find? place).isSome = true) :
    (workspace.tree.find? aim.place).isSome = true := by
  obtain ⟨slashes, -, -, hsame⟩ := locate_of_target h
  rw [hlocate] at hsame
  cases slashes with
  | nil =>
    cases hsame
    exact hsome
  | cons slash slashes =>
    rw [FileTree.find?_of_follow hsame.symm (List.cons_ne_nil _ _)]
    rfl

/-- A change is aimed at a name, at a directory, or by a step up at what is above a directory. -/
theorem named_or_directory_or_up (h : target path workspace = .ok aim) :
    aim.named = true ∨ workspace.tree.find? aim.place = some .directory ∨
      (".." ∈ path.segments ∧ ∃ below, workspace.tree.find? below = some .directory ∧
        aim.place = below.dropLast) := by
  cases hpath : Workspace.pathError? path with
  | some error =>
    rw [target_of_pathError hpath] at h
    cases h
  | none =>
    rcases segments_cases path with hsilent | ⟨before, last, slashes, hsegments, hlast, hslashes⟩
    · rw [target_of_slashes hpath hsilent] at h
      cases h
      exact .inr (.inl (FileTree.find?_root _))
    · rw [target_eq_of_segments hpath hsegments hlast hslashes, FileTree.follow_append] at h
      obtain ⟨place, hplace, rfl⟩ := map_eq_ok.1 h
      obtain ⟨parent, -, hlast'⟩ := bind_eq_ok.1 hplace
      have hdir : workspace.tree.find? parent = some .directory :=
        FileTree.find?_of_follow hlast' (List.cons_ne_nil _ _)
      rw [FileTree.follow_cons] at hlast'
      obtain ⟨next, hstep, hdone⟩ := bind_eq_ok.1 hlast'
      cases hdone
      by_cases hup : last = ".."
      · subst hup
        refine .inr (.inr ⟨by simp [hsegments], parent, hdir, ?_⟩)
        exact FileTree.eq_of_step_up hstep
      · by_cases hdot : last = "."
        · -- a dot stays where it stands, in a directory
          subst hdot
          obtain ⟨-, rfl⟩ := FileTree.step_eq_ok hstep hup
          exact .inr (.inl (by simpa [Path.isSilent] using hdir))
        · exact .inl (decide_eq_true ⟨hdot, hup⟩)

/-- A change of a plain path is aimed at a name, or a directory stands there. -/
theorem named_or_directory (h : target path workspace = .ok aim) (hplain : path.IsPlain) :
    aim.named = true ∨ workspace.tree.find? aim.place = some .directory := by
  rcases named_or_directory_or_up h with hnamed | hdir | ⟨hup, -⟩
  · exact .inl hnamed
  · exact .inr hdir
  · exact absurd hup (Path.not_mem_segments_of_isPlain hplain)

/-- A change of a file that can be read is aimed at its name, without a slash behind it, if a change
    that is aimed at no name is aimed at a directory. -/
theorem target_of_file (hread : workspace.readBytes path = .ok old)
    (hname : ∀ aim, target path workspace = .ok aim →
      aim.named = true ∨ workspace.tree.find? aim.place = some .directory) :
    ∃ place, target path workspace = .ok ⟨place, true, false⟩ ∧
      workspace.tree.find? place = some (.file old) := by
  obtain ⟨place, hlocate, hfile⟩ := Workspace.readBytes_eq_ok.1 hread
  cases htarget : target path workspace with
  | error error =>
    rw [locate_of_target_error htarget] at hlocate
    cases hlocate
  | ok aim =>
    obtain ⟨slashes, hslashes, hslash, hsame⟩ := locate_of_target htarget
    have hthere : aim.place = place ∧ slashes = [] := by
      rw [hlocate] at hsame
      cases slashes with
      | nil =>
        cases hsame
        exact ⟨rfl, rfl⟩
      | cons slash slashes =>
        have hdir := FileTree.find?_of_follow hsame.symm (List.cons_ne_nil _ _)
        rw [FileTree.follow_slashes hslashes hdir] at hsame
        cases hsame
        rw [hdir] at hfile
        cases hfile
    obtain ⟨rfl, rfl⟩ := hthere
    have hnamed : aim.named = true := by
      refine (hname aim htarget).resolve_right fun hdir => ?_
      rw [hdir] at hfile
      cases hfile
    refine ⟨aim.place, ?_, hfile⟩
    rw [← hnamed, ← hslash.2 rfl]

theorem target_of_readBytes (hplain : path.IsPlain) (hread : workspace.readBytes path = .ok old) :
    ∃ place, target path workspace = .ok ⟨place, true, false⟩ ∧
      workspace.tree.find? place = some (.file old) :=
  target_of_file hread fun _ haim => named_or_directory haim hplain

/-- Where nothing is found, nothing stands at the place that a change is aimed at. -/
theorem find?_of_target_notFound (h : target path workspace = .ok aim)
    (hnone : workspace.entryAt path = .error .notFound) : workspace.tree.find? aim.place = none := by
  obtain ⟨slashes, hslashes, -, hlocate⟩ := locate_of_target h
  have hsame {entry : Entry} (hfollow : workspace.tree.follow aim.place slashes = .ok aim.place) :
      workspace.tree.find? aim.place ≠ some entry := by
    intro hentry
    rw [Workspace.entryAt_eq_ok.2 ⟨_, hlocate.trans hfollow, hentry⟩] at hnone
    cases hnone
  cases hentry : workspace.tree.find? aim.place with
  | none => rfl
  | some entry =>
    cases entry with
    | directory => exact absurd hentry (hsame (FileTree.follow_slashes hslashes hentry))
    | file bytes =>
      cases slashes with
      | nil => exact absurd hentry (hsame rfl)
      | cons slash slashes =>
        have hstep : workspace.tree.step aim.place slash = .error .notDirectory := by
          unfold FileTree.step
          rw [hentry]
        unfold Workspace.entryAt at hnone
        rw [hlocate, FileTree.follow_cons, hstep] at hnone
        cases hnone

/-! ## 3. Changes that succeed -/

/-- A directory that stands already is left as it is, and its ancestors are not asked for. -/
theorem run_makeDirectoriesFrom_of_isDirectory {ancestors : List Path}
    (h : workspace.isDirectory path = true) :
    runIn (makeDirectoriesFrom (path :: ancestors)) workspace = (.ok (), workspace) := by
  obtain ⟨place, hlocate, hdir⟩ := Workspace.isDirectory_iff.1 h
  have hmake : runIn (makeDirectory path) workspace = (.error .alreadyExists, workspace) := by
    rw [run_makeDirectory]
    cases htarget : target path workspace with
    | error error =>
      rw [locate_of_target_error htarget] at hlocate
      cases hlocate
    | ok aim =>
      dsimp only
      rw [if_pos (isSome_find?_of_target htarget hlocate (by rw [hdir]; rfl))]
  unfold makeDirectoriesFrom
  split
  · rfl
  · rw [run_bind, run_outcome, hmake]
    dsimp only
    rw [run_bind, run_get]
    dsimp only
    rw [if_pos h]
    rfl

theorem run_makeDirectories_of_isDirectory (h : workspace.isDirectory path = true) :
    runIn (makeDirectories path) workspace = (.ok (), workspace) :=
  run_makeDirectoriesFrom_of_isDirectory h

/-- Where a change is aimed at a file, the file is overwritten, or the disk refuses that. -/
theorem run_writeBytes_of_target (htarget : target path workspace = .ok ⟨place, true, false⟩)
    (hfile : workspace.tree.find? place = some (.file old)) (bytes : ByteArray) :
    runIn (writeBytes path bytes) workspace =
      match workspace.tree.refusals place with
      | some reason => (.error (.refused reason), workspace)
      | none => (.ok (), ⟨workspace.tree.insert place (.file bytes), workspace.current⟩) := by
  have hrun := run_writeBytes path bytes workspace
  rw [htarget] at hrun
  dsimp only at hrun
  rw [if_neg (by simp), if_neg (by simp [hfile])] at hrun
  refine hrun.trans ?_
  cases workspace.tree.refusals place <;> rfl

/-- A file that can be read can be overwritten, if the disk accepts that. -/
theorem run_writeBytes_of_readBytes (hplain : path.IsPlain)
    (hread : workspace.readBytes path = .ok old) (haccepts : workspace.Accepts path)
    (bytes : ByteArray) :
    ∃ place, workspace.tree.find? place = some (.file old) ∧
      runIn (writeBytes path bytes) workspace =
        (.ok (), ⟨workspace.tree.insert place (.file bytes), workspace.current⟩) := by
  obtain ⟨place, htarget, hfile⟩ := target_of_readBytes hplain hread
  refine ⟨place, hfile, ?_⟩
  obtain rfl : place = path.landing workspace.current := target_eq_landing htarget
  rw [run_writeBytes_of_target htarget hfile, show workspace.tree.refusals _ = none from haccepts]

/-- A file that is overwritten with what it holds stays as it is, and so does all else. -/
theorem run_writeBytes_self (hplain : path.IsPlain) (hread : workspace.readBytes path = .ok old)
    (haccepts : workspace.Accepts path) :
    runIn (writeBytes path old) workspace = (.ok (), workspace) := by
  obtain ⟨place, hfile, hrun⟩ := run_writeBytes_of_readBytes hplain hread haccepts old
  have hroot : place ≠ [] := by
    rintro rfl
    simp at hfile
  rw [hrun, FileTree.insert_of_find? hroot hfile]

/-- A file that can be read can be taken away, if the disk accepts that. -/
theorem run_removeFile_of_readBytes (hplain : path.IsPlain)
    (hread : workspace.readBytes path = .ok old) (haccepts : workspace.Accepts path) :
    ∃ after, runIn (removeFile path) workspace = (.ok true, after) := by
  obtain ⟨place, htarget, hfile⟩ := target_of_readBytes hplain hread
  obtain rfl : place = path.landing workspace.current := target_eq_landing htarget
  rw [run_removeFile, htarget]
  dsimp only
  rw [if_neg (by simp), hfile]
  dsimp only
  rw [if_neg (by simp), show workspace.tree.refusals _ = none from haccepts]
  exact ⟨_, rfl⟩

/-- Where nothing is found, nothing is taken away. -/
theorem run_removeFile_of_notFound (hplain : path.IsPlain)
    (hnone : workspace.entryAt path = .error .notFound) :
    runIn (removeFile path) workspace = (.ok false, workspace) := by
  rw [run_removeFile]
  cases htarget : target path workspace with
  | error error =>
    unfold Workspace.entryAt at hnone
    rw [locate_of_target_error htarget] at hnone
    cases hnone
    rfl
  | ok aim =>
    have hfree := find?_of_target_notFound htarget hnone
    have hnamed : aim.named = true := by
      refine (named_or_directory htarget hplain).resolve_right fun hdir => ?_
      rw [hdir] at hfree
      cases hfree
    dsimp only
    rw [if_neg (by simp [hnamed]), hfree]

end FileAction

end LocaleCatalog
