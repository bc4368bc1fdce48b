import Mathlib.Data.Set.Insert
import LocaleCatalog.Proofs.FileTree.Run

/-!
# What actions do to a workspace

* `Workspace.Changed written reached` relates two workspaces: only the places of `written` hold
  something else, and new directories stand only where nothing stood, on the way to a place of
  `reached`;
* `FileAction.Within` says it of an action, however the action ends;
* `FileAction.writeBytes_spec`, `FileAction.entryAt_of_removeFile`: what the changes achieve.
-/

namespace LocaleCatalog

/-! ## 1. What may have changed -/

namespace Workspace

/-- Between two workspaces only the places of `written` hold something else; besides, directories
    were made where nothing stood, on the way to a place of `reached`. -/
structure Changed (written reached : Set Location) (before after : Workspace) : Prop where
  current : after.current = before.current
  elsewhere : ∀ place, place ∉ written →
    after.tree.find? place = before.tree.find? place ∨
      (before.tree.find? place = none ∧ after.tree.find? place = some .directory ∧
        ∃ goal ∈ reached, place <+: goal ∧ place ≠ goal)

namespace Changed

variable {written written' reached reached' : Set Location} {before between after : Workspace}
  {place : Location}

theorem refl (written reached : Set Location) (workspace : Workspace) :
    Changed written reached workspace workspace :=
  ⟨rfl, fun _ _ => .inl rfl⟩

theorem trans (h : Changed written reached before between)
    (h' : Changed written reached between after) : Changed written reached before after := by
  refine ⟨h'.current.trans h.current, fun place hplace => ?_⟩
  rcases h.elsewhere place hplace with heq | ⟨hnone, hdir, hgoal⟩
  · rcases h'.elsewhere place hplace with heq' | ⟨hnone', hmade⟩
    · exact .inl (heq'.trans heq)
    · exact .inr ⟨heq ▸ hnone', hmade⟩
  · rcases h'.elsewhere place hplace with heq' | ⟨hnone', -⟩
    · exact .inr ⟨hnone, heq'.trans hdir, hgoal⟩
    · rw [hdir] at hnone'
      cases hnone'

theorem mono (h : Changed written reached before after) (hwritten : written ⊆ written')
    (hreached : reached ⊆ reached') : Changed written' reached' before after := by
  refine ⟨h.current, fun place hplace => ?_⟩
  rcases h.elsewhere place fun hmem => hplace (hwritten hmem) with heq | ⟨hnone, hdir, hgoal⟩
  · exact .inl heq
  · obtain ⟨goal, hmem, hon⟩ := hgoal
    exact .inr ⟨hnone, hdir, goal, hreached hmem, hon⟩

/-- What stood elsewhere still stands. -/
theorem find?_of_find? (h : Changed written reached before after) (hplace : place ∉ written)
    {entry : Entry} (hentry : before.tree.find? place = some entry) :
    after.tree.find? place = some entry := by
  rcases h.elsewhere place hplace with heq | ⟨hnone, -⟩
  · rw [heq, hentry]
  · rw [hentry] at hnone
    cases hnone

/-- Elsewhere there are the same files as before. -/
theorem find?_file_iff (h : Changed written reached before after) (hplace : place ∉ written)
    (bytes : ByteArray) :
    after.tree.find? place = some (.file bytes) ↔ before.tree.find? place = some (.file bytes) := by
  rcases h.elsewhere place hplace with heq | ⟨hnone, hdir, -⟩
  · rw [heq]
  · rw [hnone, hdir]
    simp

/-- Nothing is changed at a place that leads nowhere further. -/
theorem find?_eq (h : Changed written reached before after) (hplace : place ∉ written)
    (hlast : ∀ goal ∈ reached, place <+: goal → place = goal) :
    after.tree.find? place = before.tree.find? place := by
  rcases h.elsewhere place hplace with heq | ⟨-, -, goal, hgoal, hon, hne⟩
  · exact heq
  · exact absurd (hlast goal hgoal hon) hne

/-- Where nothing is changed, the same is found at every path. -/
theorem entryAt_of_empty (h : Changed ∅ ∅ before after) {path : Path} :
    after.entryAt path = before.entryAt path :=
  entryAt_congr h.current fun _ =>
    h.find?_eq (Set.notMem_empty _) fun _ hgoal => absurd hgoal (Set.notMem_empty _)

/-- What was found is still found, if nothing was written on the way to it. -/
theorem entryAt_eq (h : Changed written reached before after) {path : Path} {entry : Entry}
    (hplain : path.IsPlain) (hapart : ∀ place ∈ written, ¬ place <+: path.placeFrom before.current)
    (hentry : before.entryAt path = .ok entry) : after.entryAt path = .ok entry := by
  obtain ⟨place, hlocate, hfound⟩ := entryAt_eq_ok.1 hentry
  have hplace := locate_eq_place hlocate hplain
  have hkept : ∀ on, on <+: place → on ∉ written :=
    fun on hon hmem => hapart on hmem (hplace ▸ hon)
  refine entryAt_eq_ok.2 ⟨place, ?_, h.find?_of_find? (hkept _ (List.prefix_refl _)) hfound⟩
  exact locate_of_directories hlocate hplain h.current
    fun on hon hdir => h.find?_of_find? (hkept on hon) hdir

/-- A file that could be read can still be read, if nothing was written on the way to it. -/
theorem readBytes_eq (h : Changed written reached before after) {path : Path} {bytes : ByteArray}
    (hplain : path.IsPlain) (hapart : ∀ place ∈ written, ¬ place <+: path.placeFrom before.current)
    (hread : before.readBytes path = .ok bytes) : after.readBytes path = .ok bytes := by
  rw [readBytes_eq_ok, ← entryAt_eq_ok] at hread ⊢
  exact h.entryAt_eq hplain hapart hread

end Changed

/-- The file at a path is what it was: the same stands at its place, and what could be read there
    still can. -/
structure Kept (path : Path) (before after : Workspace) : Prop where
  entry : after.tree.find? (path.placeFrom before.current) =
    before.tree.find? (path.placeFrom before.current)
  contents : ∀ bytes, before.readBytes path = .ok bytes → after.readBytes path = .ok bytes

theorem Kept.refl (path : Path) (workspace : Workspace) : Kept path workspace workspace :=
  ⟨rfl, fun _ hread => hread⟩

theorem Kept.trans {path : Path} {before between after : Workspace} (h : Kept path before between)
    (h' : Kept path between after) (hcurrent : between.current = before.current) :
    Kept path before after := by
  refine ⟨?_, fun bytes hread => h'.contents bytes (h.contents bytes hread)⟩
  have hentry := h'.entry
  rw [hcurrent] at hentry
  exact hentry.trans h.entry

/-- Files are kept that neither lie below what was written nor on the way to it. -/
theorem Changed.kept {written reached : Set Location} {before after : Workspace} {path : Path}
    (h : Changed written reached before after) (hplain : path.IsPlain)
    (hwritten : ∀ place ∈ written, ¬ place <+: path.placeFrom before.current)
    (hreached : ∀ goal ∈ reached, path.placeFrom before.current <+: goal →
      path.placeFrom before.current = goal) : Kept path before after :=
  ⟨h.find?_eq (fun hmem => hwritten _ hmem (List.prefix_refl _)) hreached,
    fun _ hread => h.readBytes_eq hplain hwritten hread⟩

end Workspace

/-! ## 2. What an action may change -/

namespace Workspace

/-- Seen from a current directory, no more was changed. -/
def ChangedFrom (current : Location) (written reached : Set Location)
    (before after : Workspace) : Prop :=
  before.current = current → Changed written reached before after

instance (current : Location) (written reached : Set Location) :
    IsPreorder Workspace (ChangedFrom current written reached) where
  refl before _ := .refl _ _ before
  trans _ _ _ h h' hcurrent := (h hcurrent).trans (h' ((h hcurrent).current.trans hcurrent))

end Workspace

namespace FileAction

open Workspace (Changed ChangedFrom)

variable {ε α : Type} {current : Location} {written written' reached reached' : Set Location}

/-- Run where paths start from `current`, and however it ends, the action changes no more. -/
abbrev Within (current : Location) (written reached : Set Location) (action : FileAction ε α) :
    Prop :=
  Moves (ChangedFrom current written reached) action

/-- What one run of the action has changed. -/
theorem Moves.changed {action : FileAction ε α} {before after : Workspace} {result : Except ε α}
    (h : Within before.current written reached action)
    (hrun : runIn action before = (result, after)) : Changed written reached before after :=
  h.of_run hrun rfl

theorem Within.mono {action : FileAction ε α} (h : Within current written reached action)
    (hwritten : written ⊆ written') (hreached : reached ⊆ reached') :
    Within current written' reached' action :=
  fun before hcurrent => (h before hcurrent).mono hwritten hreached

/-! ## 3. What the changes may change -/

variable {path : Path} {goal : Location}

/-- One entry put at a place changes that place alone. -/
theorem changed_insert (workspace : Workspace) (place : Location) (entry : Entry) :
    Changed {place} reached workspace ⟨workspace.tree.insert place entry, workspace.current⟩ :=
  ⟨rfl, fun _ hother => .inl (FileTree.find?_insert_of_ne hother)⟩

theorem changed_erase (workspace : Workspace) (place : Location) :
    Changed {place} reached workspace ⟨workspace.tree.erase place, workspace.current⟩ :=
  ⟨rfl, fun _ hother => .inl (FileTree.find?_erase_of_ne hother)⟩

/-- A directory made where nothing stood, above a goal. -/
theorem changed_insert_directory {workspace : Workspace} {place : Location}
    (hnone : workspace.tree.find? place = none) (hgoal : goal ∈ reached) (hon : place <+: goal)
    (hne : place ≠ goal) :
    Changed written reached workspace
      ⟨workspace.tree.insert place .directory, workspace.current⟩ := by
  refine ⟨rfl, fun other _ => ?_⟩
  by_cases heq : other = place
  · subst heq
    have hroot : other ≠ [] := by
      rintro rfl
      simp at hnone
    exact .inr ⟨hnone, FileTree.find?_insert_self hroot, goal, hgoal, hon, hne⟩
  · exact .inl (FileTree.find?_insert_of_ne heq)

theorem within_makeDirectory (hplain : path.IsPlain) (hgoal : goal ∈ reached)
    (hon : path.placeFrom current <+: goal) (hne : path.placeFrom current ≠ goal) :
    Within current written reached (makeDirectory path) := by
  intro before hcurrent
  rcases makeDirectory_cases path before with ⟨error, hrun⟩ | ⟨aim, haim, hnone, -, hrun⟩
  · rw [hrun]
    exact .refl _ _ before
  · have hplace := target_eq_place haim hplain
    rw [hcurrent] at hplace
    rw [hrun]
    rw [hplace] at hnone ⊢
    exact changed_insert_directory hnone hgoal hon hne

theorem within_makeDirectoriesFrom {paths : List Path} (hgoal : goal ∈ reached)
    (h : ∀ path ∈ paths, path.text ≠ "" →
      path.IsPlain ∧ path.placeFrom current <+: goal ∧ path.placeFrom current ≠ goal) :
    Within current written reached (makeDirectoriesFrom paths) := by
  refine moves_makeDirectoriesFrom fun path hpath hempty => ?_
  obtain ⟨hplain, hon, hne⟩ := h path hpath hempty
  exact within_makeDirectory hplain hgoal hon hne

/-- The directories that are made lead to the place of a path below them. -/
theorem within_makeDirectories {parent : Path} (hplain : path.IsPlain)
    (hparent : path.parent? = some parent) (hne : parent.text ≠ "") :
    Within current written {path.placeFrom current} (makeDirectories parent) := by
  have hmem : parent ∈ path.ancestors := List.mem_of_mem_head? hparent
  exact within_makeDirectoriesFrom (Set.mem_singleton _) fun above habove _ =>
    ⟨Path.isPlain_of_mem_parents hmem habove hplain,
      Path.placeFrom_of_mem_parents hmem hne habove current⟩

theorem within_writeBytes (hplain : path.IsPlain) (bytes : ByteArray) :
    Within current {path.placeFrom current} reached (writeBytes path bytes) := by
  intro before hcurrent
  rcases writeBytes_cases path bytes before with ⟨error, hrun⟩ | ⟨place, haim, -, -, hrun⟩
  · rw [hrun]
    exact .refl _ _ before
  · obtain rfl : place = path.placeFrom before.current := target_eq_place haim hplain
    rw [hrun, ← hcurrent]
    exact changed_insert _ _ _

theorem within_removeFile (hplain : path.IsPlain) :
    Within current {path.placeFrom current} reached (removeFile path) := by
  intro before hcurrent
  rcases removeFile_cases path before with
    ⟨error, hrun⟩ | ⟨-, hrun⟩ | ⟨place, bytes, haim, -, -, hrun⟩
  · rw [hrun]
    exact .refl _ _ before
  · rw [hrun]
    exact .refl _ _ before
  · obtain rfl : place = path.placeFrom before.current := target_eq_place haim hplain
    rw [hrun, ← hcurrent]
    exact changed_erase _ _

/-! ## 4. What the changes achieve -/

variable {before after : Workspace} {bytes : ByteArray}

/-- What was written is what is read, and writing it again changes nothing. -/
theorem writeBytes_spec (h : runIn (writeBytes path bytes) before = (.ok (), after)) :
    after.readBytes path = .ok bytes ∧
      runIn (writeBytes path bytes) after = (.ok (), after) := by
  rcases writeBytes_cases path bytes before with
    ⟨error, hrun⟩ | ⟨place, haim, hfree, hallowed, hrun⟩
  · rw [h] at hrun
    cases hrun
  · rw [h] at hrun
    cases hrun
    have hroot : place ≠ [] := fun heq => hfree (by simp [heq])
    have hkept : ∀ on, before.tree.find? on = some .directory →
        (before.tree.insert place (.file bytes)).find? on = some .directory := by
      intro on hdir
      have hne : on ≠ place := by
        rintro rfl
        exact hfree hdir
      exact (FileTree.find?_insert_of_ne hne).trans hdir
    have hfile : (before.tree.insert place (.file bytes)).find? place = some (.file bytes) :=
      FileTree.find?_insert_self hroot
    obtain ⟨slashes, -, hnone, hlocate⟩ := locate_of_target haim
    obtain rfl := hnone.1 rfl
    constructor
    · exact Workspace.readBytes_eq_ok.2
        ⟨place, Workspace.locate_of_kept hlocate rfl hkept, hfile⟩
    · have haim' : target path ⟨before.tree.insert place (.file bytes), before.current⟩ =
          .ok ⟨place, true, false⟩ := target_of_kept haim rfl hkept
      rw [run_writeBytes, haim']
      dsimp only
      rw [if_neg (by simp), if_neg (by rw [hfile]; nofun), FileTree.refusals_insert, hallowed,
        FileTree.insert_of_find? hroot hfile]

/-- A write that fails changes nothing. -/
theorem eq_of_writeBytes_error {error : IoError}
    (h : runIn (writeBytes path bytes) before = (.error error, after)) : after = before := by
  rcases writeBytes_cases path bytes before with ⟨_, hrun⟩ | ⟨place, -, -, -, hrun⟩ <;>
    rw [h] at hrun <;> cases hrun
  rfl

/-- A file that was taken away is not found, and neither was one that could not be. -/
theorem entryAt_of_removeFile {removed : Bool}
    (h : runIn (removeFile path) before = (.ok removed, after)) :
    after.entryAt path = .error .notFound := by
  rcases removeFile_cases path before with
    ⟨error, hrun⟩ | ⟨hmissing, hrun⟩ | ⟨place, bytes, haim, hfile, -, hrun⟩ <;>
    rw [h] at hrun <;> cases hrun
  · exact hmissing
  · obtain ⟨slashes, -, hnone, hlocate⟩ := locate_of_target haim
    obtain rfl := hnone.1 rfl
    have hroot : place ≠ [] := by
      intro heq
      simp [heq] at hfile
    have hkept : ∀ on, before.tree.find? on = some .directory →
        (before.tree.erase place).find? on = some .directory := by
      intro on hdir
      have hne : on ≠ place := by
        rintro rfl
        rw [hdir] at hfile
        cases hfile
      exact (FileTree.find?_erase_of_ne hne).trans hdir
    have hstill : (⟨before.tree.erase place, before.current⟩ : Workspace).locate path =
        (before.tree.erase place).follow place [] :=
      Workspace.locate_of_kept hlocate rfl hkept
    exact Workspace.entryAt_eq_notFound hstill (FileTree.find?_erase_self hroot)

/-- What was taken away was a file that could be read. -/
theorem exists_readBytes_of_removeFile (h : runIn (removeFile path) before = (.ok true, after)) :
    ∃ bytes, before.readBytes path = .ok bytes := by
  rcases removeFile_cases path before with
    ⟨error, hrun⟩ | ⟨-, hrun⟩ | ⟨place, bytes, haim, hfile, -, hrun⟩ <;>
    rw [h] at hrun <;> cases hrun
  obtain ⟨slashes, -, hnone, hlocate⟩ := locate_of_target haim
  obtain rfl := hnone.1 rfl
  exact ⟨bytes, Workspace.readBytes_eq_ok.2 ⟨place, hlocate, hfile⟩⟩

/-- A removal that fails changes nothing. -/
theorem eq_of_removeFile_error {error : IoError}
    (h : runIn (removeFile path) before = (.error error, after)) : after = before := by
  rcases removeFile_cases path before with
    ⟨_, hrun⟩ | ⟨-, hrun⟩ | ⟨place, _, -, -, -, hrun⟩ <;>
    rw [h] at hrun <;> cases hrun
  rfl

end FileAction

end LocaleCatalog
