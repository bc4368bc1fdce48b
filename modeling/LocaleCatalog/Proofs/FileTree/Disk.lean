import Mathlib.Data.List.Induction
import LocaleCatalog.Proofs.FileTree.Clear

/-!
# Workspaces as they stand on a disk

A `FileTree` is a map from places to entries, and nothing in it says that what stands below a place
stands in a directory, or that a name has no slash. On a disk this holds, and paths start from a
directory that is there:

* `Workspace.WellFormed` says so and can be decided of a given workspace, and a `Disk` is a workspace
  with the proof;
* no change takes it away, so every action leads from a disk to a disk
  (`FileAction.Changes` for `Workspace.StaysWellFormed`);
* `Disk.readBytes_of_find?`: a file that stands at the place of a path can be read, so a file that is
  kept has the same bytes (`Disk.sameBytes_of_kept`);
* `Disk.find?_eq_none`: where nothing is found, nothing stands;
* `Disk.entryAt_of_less`: it is still not found where some of the directories were made that lie on
  the way to it in a later workspace.
-/

namespace LocaleCatalog

/-! ## 1. Names -/

/-- A name that a disk can give to an entry. -/
structure IsEntryName (name : String) : Prop where
  isName : Path.IsName name
  noNul : '\x00' ∉ name.toList
  short : name.utf8ByteSize ≤ longestName

instance (name : String) : Decidable (IsEntryName name) :=
  decidable_of_iff (Path.IsName name ∧ '\x00' ∉ name.toList ∧ name.utf8ByteSize ≤ longestName)
    ⟨fun h => ⟨h.1, h.2.1, h.2.2⟩, fun h => ⟨h.isName, h.noNul, h.short⟩⟩

/-- A piece of a path holds what the path holds. -/
theorem Path.subset_of_mem_pieces {cs piece : List Char} (h : piece ∈ pieces cs) : piece ⊆ cs := by
  induction cs generalizing piece with
  | nil =>
    obtain rfl : piece = [] := by simpa [pieces] using h
    exact List.nil_subset _
  | cons c cs ih =>
    unfold pieces at h
    split at h
    · rcases List.mem_cons.1 h with rfl | h
      · exact List.nil_subset _
      · exact List.subset_cons_of_subset c (ih h)
    · split at h
      · rename_i head more heq
        rw [heq] at ih
        rcases List.mem_cons.1 h with rfl | h
        · exact List.cons_subset_cons c (ih List.mem_cons_self)
        · exact List.subset_cons_of_subset c (ih (List.mem_cons_of_mem _ h))
      · obtain rfl : piece = [c] := by simpa using h
        exact List.cons_subset_cons c (List.nil_subset _)

namespace FileTree

variable {tree : FileTree} {place : Location} {segments : List String}

/-- Nothing is missing on the way where something stands at each place of it. -/
theorem follow_ne_notFound (hup : ".." ∉ segments)
    (hsome : ∀ on, place <+: on →
      on <+: place ++ segments.filter (fun segment => !Path.isSilent segment) →
      (tree.find? on).isSome = true) :
    tree.follow place segments ≠ .error .notFound := by
  induction segments generalizing place with
  | nil => nofun
  | cons segment segments ih =>
    rw [List.mem_cons, not_or] at hup
    rw [follow_cons]
    cases hstep : tree.step place segment with
    | error error =>
      rintro ⟨⟩
      unfold step at hstep
      split at hstep
      · rename_i hnone
        have := hsome place (List.prefix_refl _) (List.prefix_append _ _)
        rw [hnone] at this
        cases this
      · cases hstep
      · split at hstep
        · cases hstep
        · split at hstep
          · cases hstep
          · split at hstep <;> cases hstep
    | ok next =>
      obtain ⟨-, rfl⟩ := step_eq_ok hstep (Ne.symm hup.1)
      refine ih hup.2 fun on hbehind hon => ?_
      rw [List.append_assoc, ← List.filter_append] at hon
      exact hsome on ((List.prefix_append _ _).trans hbehind) hon

/-- A step down has a name that is not too long. -/
theorem size_le_of_step {goal : Location} {segment : String}
    (h : tree.step place segment = .ok goal) (hsolid : Path.isSilent segment = false)
    (hup : segment ≠ "..") : segment.utf8ByteSize ≤ longestName := by
  unfold step at h
  split at h
  · cases h
  · cases h
  · rw [if_neg (by simp [hsolid]), if_neg hup] at h
    split at h
    · cases h
    · rename_i hshort
      exact Nat.not_lt.1 hshort

end FileTree

namespace Workspace

/-! ## 2. Well-formed workspaces -/

/-- All that stands stands in a directory, under names that a disk can give, and paths start from a
    directory. -/
structure WellFormed (workspace : Workspace) : Prop where
  current : workspace.tree.find? workspace.current = some .directory
  above : ∀ place name, (workspace.tree.find? (place ++ [name])).isSome = true →
    workspace.tree.find? place = some .directory
  names : ∀ place, (workspace.tree.find? place).isSome = true → ∀ name ∈ place, IsEntryName name

variable {workspace : Workspace} {place above : Location} {name : String}

/-- It is enough to look at the entries of the tree. -/
theorem wellFormed_iff : workspace.WellFormed ↔
    workspace.tree.find? workspace.current = some .directory ∧
      ∀ found ∈ workspace.tree.entries.toList,
        workspace.tree.find? found.1.dropLast = some .directory ∧
          ∀ name ∈ found.1, IsEntryName name := by
  have hentry (place : Location) (entry : Entry) (hne : place ≠ []) :
      (place, entry) ∈ workspace.tree.entries.toList ↔ workspace.tree.find? place = some entry := by
    rw [Std.ExtTreeMap.mem_toList_iff_getElem?_eq_some, FileTree.find?, if_neg hne]
  constructor
  · rintro ⟨hcurrent, habove, hnames⟩
    refine ⟨hcurrent, ?_⟩
    rintro ⟨place, entry⟩ hfound
    rcases List.eq_nil_or_concat' place with rfl | ⟨above, name, rfl⟩
    · exact ⟨FileTree.find?_root _, fun _ hname => absurd hname List.not_mem_nil⟩
    · rw [hentry _ _ (by simp)] at hfound
      have hsome : (workspace.tree.find? (above ++ [name])).isSome = true := by rw [hfound]; rfl
      exact ⟨by simpa using habove above name hsome, hnames _ hsome⟩
  · rintro ⟨hcurrent, hentries⟩
    have hfound (place : Location) (hne : place ≠ [])
        (hsome : (workspace.tree.find? place).isSome = true) :
        workspace.tree.find? place.dropLast = some .directory ∧
          ∀ name ∈ place, IsEntryName name := by
      obtain ⟨entry, hentry'⟩ := Option.isSome_iff_exists.1 hsome
      exact hentries _ ((hentry _ _ hne).2 hentry')
    refine ⟨hcurrent, fun place name hsome => ?_, fun place hsome name hname => ?_⟩
    · simpa using (hfound _ (by simp) hsome).1
    · exact (hfound place (List.ne_nil_of_mem hname) hsome).2 name hname

instance (workspace : Workspace) : Decidable workspace.WellFormed :=
  decidable_of_iff _ wellFormed_iff.symm

/-- With an entry in a directory, where no directory stands. -/
theorem WellFormed.insert (h : workspace.WellFormed) (entry : Entry)
    (habove : workspace.tree.find? above = some .directory) (hname : IsEntryName name)
    (hfree : workspace.tree.find? (above ++ [name]) ≠ some .directory) :
    WellFormed ⟨workspace.tree.insert (above ++ [name]) entry, workspace.current⟩ := by
  have hkept {on : Location} (hdir : workspace.tree.find? on = some .directory) :
      (workspace.tree.insert (above ++ [name]) entry).find? on = some .directory := by
    have hne : on ≠ above ++ [name] := by
      rintro rfl
      exact hfree hdir
    exact (FileTree.find?_insert_of_ne hne).trans hdir
  refine ⟨hkept h.current, fun place inside hsome => ?_, fun place hsome => ?_⟩
  · by_cases heq : place ++ [inside] = above ++ [name]
    · obtain ⟨rfl, -⟩ := List.append_inj' heq rfl
      exact hkept habove
    · rw [FileTree.find?_insert_of_ne heq] at hsome
      exact hkept (h.above place inside hsome)
  · by_cases heq : place = above ++ [name]
    · subst heq
      exact List.forall_mem_append.2
        ⟨h.names above (by rw [habove]; rfl), List.forall_mem_singleton.2 hname⟩
    · rw [FileTree.find?_insert_of_ne heq] at hsome
      exact h.names place hsome

/-- Without a file. -/
theorem WellFormed.erase (h : workspace.WellFormed) {bytes : ByteArray}
    (hfile : workspace.tree.find? place = some (.file bytes)) :
    WellFormed ⟨workspace.tree.erase place, workspace.current⟩ := by
  have hkept {on : Location} (hdir : workspace.tree.find? on = some .directory) :
      (workspace.tree.erase place).find? on = some .directory := by
    have hne : on ≠ place := by
      rintro rfl
      rw [hdir] at hfile
      cases hfile
    exact (FileTree.find?_erase_of_ne hne).trans hdir
  have hroot : place ≠ [] := by
    rintro rfl
    simp at hfile
  have hbefore {on : Location} (hsome : ((workspace.tree.erase place).find? on).isSome = true) :
      (workspace.tree.find? on).isSome = true := by
    by_cases heq : on = place
    · rw [heq, FileTree.find?_erase_self hroot] at hsome
      cases hsome
    · rwa [FileTree.find?_erase_of_ne heq] at hsome
  exact ⟨hkept h.current, fun above name hsome => hkept (h.above above name (hbefore hsome)),
    fun on hsome => h.names on (hbefore hsome)⟩

end Workspace

/-! ## 3. Disks -/

/-- A workspace as it stands on a disk. -/
structure Disk extends Workspace where
  wellFormed : toWorkspace.WellFormed

instance : Coe Disk Workspace := ⟨Disk.toWorkspace⟩

namespace Disk

variable (disk : Disk) {place on : Location} {path : Path}

/-- Above all that stands there are directories. -/
theorem find?_of_prefix (hsome : (disk.tree.find? place).isSome = true) (hon : on <+: place)
    (hne : on ≠ place) : disk.tree.find? on = some .directory := by
  induction place using List.reverseRecOn with
  | nil => exact absurd (List.prefix_nil.1 hon) hne
  | append_singleton above name ih =>
    have hdir := disk.wellFormed.above above name hsome
    have hon' := (List.prefix_concat_iff.1 hon).resolve_left hne
    by_cases heq : on = above
    · rw [heq, hdir]
    · exact ih (by rw [hdir]; rfl) hon' heq

theorem find?_startOf (path : Path) : disk.tree.find? (disk.startOf path) = some .directory := by
  unfold Workspace.startOf
  split
  · exact FileTree.find?_root _
  · exact disk.wellFormed.current

/-- Above a directory there are directories. -/
theorem find?_dropLast (hdir : disk.tree.find? place = some .directory) :
    disk.tree.find? place.dropLast = some .directory := by
  rcases List.eq_nil_or_concat' place with rfl | ⟨above, name, rfl⟩
  · exact hdir
  · simpa using disk.wellFormed.above above name (by rw [hdir]; rfl)

/-- A change is aimed at a name, or at a directory, also where the path goes up. -/
theorem named_or_directory {aim : FileAction.Target} (h : FileAction.target path disk = .ok aim) :
    aim.named = true ∨ disk.tree.find? aim.place = some .directory := by
  rcases FileAction.named_or_directory_or_up h with hnamed | hdir | ⟨-, below, hbelow, hplace⟩
  · exact .inl hnamed
  · exact .inr hdir
  · exact .inr (hplace ▸ disk.find?_dropLast hbelow)

/-- A change of a file that can be read is aimed at its name. -/
theorem target_of_readBytes {old : ByteArray} (hread : disk.readBytes path = .ok old) :
    ∃ place, FileAction.target path disk = .ok ⟨place, true, false⟩ ∧
      disk.tree.find? place = some (.file old) :=
  FileAction.target_of_file hread fun _ => disk.named_or_directory

end Disk

/-! ## 4. Changes -/

namespace FileAction

variable {workspace : Workspace} {path : Path} {aim : Target}

/-- What is named lies in a directory, under a name that a disk can give. -/
theorem exists_isEntryName_of_target (h : target path workspace = .ok aim)
    (hnamed : aim.named = true) :
    ∃ above name, aim.place = above ++ [name] ∧ workspace.tree.find? above = some .directory ∧
      IsEntryName name := by
  cases hpath : Workspace.pathError? path with
  | some error =>
    rw [target_of_pathError hpath] at h
    cases h
  | none =>
    rcases segments_cases path with hsilent | ⟨before, last, slashes, hsegments, hlast, hslashes⟩
    · rw [target_of_slashes hpath hsilent] at h
      cases h
      cases hnamed
    · rw [target_eq_of_segments hpath hsegments hlast hslashes, FileTree.follow_append] at h
      obtain ⟨place, hplace, rfl⟩ := map_eq_ok.1 h
      obtain ⟨above, -, hstep⟩ := bind_eq_ok.1 hplace
      rw [FileTree.follow_cons] at hstep
      obtain ⟨next, hstep, hdone⟩ := bind_eq_ok.1 hstep
      cases hdone
      have hname : last ≠ "." ∧ last ≠ ".." := of_decide_eq_true hnamed
      have hsolid : Path.isSilent last = false := by simp [Path.isSilent, hlast, hname.1]
      obtain ⟨hdir, hend⟩ := FileTree.step_eq_ok hstep hname.2
      refine ⟨above, last, by simpa [hsolid] using hend, hdir, ?_⟩
      obtain ⟨piece, hpiece, rfl⟩ := List.mem_map.1
        (hsegments ▸ List.mem_append_right before List.mem_cons_self : last ∈ path.segments)
      rw [← String.toList_ofList (l := piece)] at hpiece
      refine ⟨⟨Path.not_mem_of_mem_pieces hpiece, hsolid, hname.2⟩, fun hnul => ?_,
        FileTree.size_le_of_step hstep hsolid hname.2⟩
      exact (Workspace.pathError?_eq_none_iff.1 hpath).1 (Path.subset_of_mem_pieces hpiece hnul)

end FileAction

/-- What is well-formed before is well-formed afterwards. -/
def Workspace.StaysWellFormed (before after : Workspace) : Prop :=
  before.WellFormed → after.WellFormed

instance : IsPreorder Workspace Workspace.StaysWellFormed where
  refl _ := id
  trans _ _ _ h h' := h' ∘ h

/-- Every change leads from a disk to a disk. -/
instance : FileAction.Changes Workspace.StaysWellFormed where
  makeDirectory path before := by
    intro hformed
    rcases FileAction.makeDirectory_cases path before with
      ⟨error, hrun⟩ | ⟨aim, haim, hnone, -, hrun⟩ <;> rw [hrun]
    · exact hformed
    · have hnamed : aim.named = true := by
        refine ((Disk.mk before hformed).named_or_directory haim).resolve_right fun hdir => ?_
        rw [hnone] at hdir
        cases hdir
      obtain ⟨above, name, hplace, hdir, hname⟩ :=
        FileAction.exists_isEntryName_of_target haim hnamed
      rw [hplace] at hnone ⊢
      exact hformed.insert .directory hdir hname (by rw [hnone]; nofun)
  writeBytes path bytes before := by
    intro hformed
    rcases FileAction.writeBytes_cases path bytes before with
      ⟨error, hrun⟩ | ⟨place, haim, hfree, -, hrun⟩ <;> rw [hrun]
    · exact hformed
    · obtain ⟨above, name, rfl, hdir, hname⟩ := FileAction.exists_isEntryName_of_target haim rfl
      exact hformed.insert (.file bytes) hdir hname hfree
  removeFile path before := by
    intro hformed
    rcases FileAction.removeFile_cases path before with
      ⟨error, hrun⟩ | ⟨-, hrun⟩ | ⟨place, bytes, -, hfile, -, hrun⟩ <;> rw [hrun]
    · exact hformed
    · exact hformed
    · exact hformed.erase hfile

/-! ## 5. The same bytes -/

namespace Workspace

/-- A path can be read in both workspaces, with the same bytes, or in neither. -/
def SameBytes (path : Path) (first second : Workspace) : Prop :=
  ∀ bytes, first.readBytes path = .ok bytes ↔ second.readBytes path = .ok bytes

variable {path : Path} {first second third : Workspace}

theorem SameBytes.symm (h : SameBytes path first second) : SameBytes path second first :=
  fun bytes => (h bytes).symm

theorem SameBytes.trans (h : SameBytes path first second) (h' : SameBytes path second third) :
    SameBytes path first third :=
  fun bytes => (h bytes).trans (h' bytes)

theorem sameBytes_of_eq (h : first.readBytes path = second.readBytes path) :
    SameBytes path first second := by
  intro bytes
  rw [h]

end Workspace

/-! ## 6. What is found -/

namespace Disk

open Workspace

variable (disk : Disk) {path : Path} {stopped after : Workspace}

/-- A file that stands at the place of a path can be read, if a path can have such a place. -/
theorem readBytes_of_find? (hplain : path.IsPlain)
    (hcurrent : after.current = disk.current) {bytes old : ByteArray}
    (hread : after.readBytes path = .ok old)
    (hfile : disk.tree.find? (path.placeFrom disk.current) = some (.file bytes)) :
    disk.readBytes path = .ok bytes := by
  obtain ⟨place, hlocate, hfile'⟩ := readBytes_eq_ok.1 hread
  have hplace : place = path.placeFrom disk.current :=
    hcurrent ▸ locate_eq_place hlocate hplain
  subst hplace
  refine readBytes_eq_ok.2 ⟨_, locate_of_directories hlocate hplain hcurrent.symm ?_, hfile⟩
  intro on hon hdir
  refine disk.find?_of_prefix (by rw [hfile]; rfl) hon ?_
  rintro rfl
  rw [hdir] at hfile'
  cases hfile'

/-- What is kept can be read just if it could be before, on a disk. -/
theorem sameBytes_of_kept (hplain : path.IsPlain)
    (hcurrent : after.current = disk.current) (hkept : Kept path disk after) :
    SameBytes path after disk := by
  refine fun bytes => ⟨fun hread => ?_, hkept.contents bytes⟩
  obtain ⟨place, hlocate, hfile⟩ := readBytes_eq_ok.1 hread
  rw [locate_eq_place hlocate hplain, hcurrent, hkept.entry] at hfile
  exact disk.readBytes_of_find? hplain hcurrent hread hfile

/-- Where nothing is found, nothing stands. -/
theorem find?_eq_none (hplain : path.IsPlain)
    (hpath : pathError? path = none) (hnone : disk.entryAt path = .error .notFound) :
    disk.tree.find? (path.placeFrom disk.current) = none := by
  by_contra hentry
  have hsome := Option.isSome_iff_ne_none.2 hentry
  have hway : ∀ on, disk.startOf path <+: on →
      on <+: disk.startOf path ++ path.segments.filter (fun s => !Path.isSilent s) →
      (disk.tree.find? on).isSome = true := by
    intro on _ hon
    by_cases heq : on = path.placeFrom disk.current
    · rw [heq, hsome]
    · rw [disk.find?_of_prefix hsome hon heq]
      rfl
  have hfollow := FileTree.follow_ne_notFound (Path.not_mem_segments_of_isPlain hplain) hway
  unfold entryAt at hnone
  cases hlocate : disk.locate path with
  | error error =>
    rw [hlocate] at hnone
    cases hnone
    rw [FileAction.locate_eq_follow hpath] at hlocate
    exact hfollow hlocate
  | ok place =>
    obtain ⟨entry, hentry⟩ := Option.isSome_iff_exists.1 hsome
    rw [← locate_eq_place hlocate hplain] at hentry
    rw [hlocate] at hnone
    simp only [bind, Except.bind, hentry] at hnone
    cases hnone

/-- What was not found is still not found where only some of the directories were made that lie on
    the way to it later on. -/
theorem entryAt_of_less (hplain : path.IsPlain)
    (hnone : disk.entryAt path = .error .notFound) (hcurrent : stopped.current = disk.current)
    (hcurrent' : after.current = disk.current)
    (hend : stopped.tree.find? (path.placeFrom disk.current) =
      disk.tree.find? (path.placeFrom disk.current))
    (hless : ∀ on, on <+: path.placeFrom disk.current → on ≠ path.placeFrom disk.current →
      stopped.tree.find? on = after.tree.find? on ∨ stopped.tree.find? on = none)
    (hafter : (∃ entry, after.entryAt path = .ok entry) ∨ after.entryAt path = .error .notFound) :
    stopped.entryAt path = .error .notFound := by
  cases hpath : pathError? path with
  | some error =>
    have hlocate (workspace : Workspace) : workspace.locate path = .error error := by
      unfold locate
      rw [hpath]
    unfold entryAt at hnone ⊢
    rw [hlocate] at hnone ⊢
    exact hnone
  | none =>
    have hmissing : stopped.tree.find? (path.placeFrom disk.current) = none :=
      hend.trans (disk.find?_eq_none hplain hpath hnone)
    have hstart : stopped.startOf path = after.startOf path := by
      unfold startOf
      rw [hcurrent, hcurrent']
    have hfollow : stopped.locate path = after.locate path ∨
        stopped.locate path = .error .notFound := by
      rw [FileAction.locate_eq_follow hpath, FileAction.locate_eq_follow hpath, hstart]
      refine FileTree.follow_of_less (Path.not_mem_segments_of_isPlain hplain) fun on _ hon => ?_
      have hplace : path.placeFrom disk.current =
          after.startOf path ++ path.segments.filter fun s => !Path.isSilent s := by
        rw [← hcurrent']
        rfl
      by_cases heq : on = path.placeFrom disk.current
      · exact .inr (heq ▸ hmissing)
      · exact hless on (hplace ▸ hon) heq
    cases hlocate : stopped.locate path with
    | ok place =>
      rw [← hcurrent, ← locate_eq_place hlocate hplain] at hmissing
      unfold entryAt
      rw [hlocate]
      simp only [bind, Except.bind, hmissing]
      rfl
    | error error =>
      have hmissing' : error = .notFound := by
        rcases hfollow with hsame | hgone
        · rw [hlocate] at hsame
          unfold entryAt at hafter
          rw [← hsame] at hafter
          rcases hafter with ⟨entry, hentry⟩ | herror
          · cases hentry
          · cases herror
            rfl
        · rw [hlocate] at hgone
          cases hgone
          rfl
      unfold entryAt
      rw [hlocate, hmissing']
      rfl

end Disk

end LocaleCatalog
