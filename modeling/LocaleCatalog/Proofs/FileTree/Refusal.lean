import LocaleCatalog.Proofs.FileTree.Landing

/-!
# What the disk refuses

A disk may refuse to change what it lets us read: a directory may be write-protected, a volume may be
full. Then a change fails, however well its path is formed:

* `Workspace.Accepts` says that the disk does not refuse to change what stands where a path lands. A
  change that succeeds was accepted (`FileAction.accepts_of_writeBytes`,
  `FileAction.accepts_of_removeFile`);
* `Workspace.Heeded` relates two workspaces: what the disk refuses to change is what it was, and it
  refuses the same as before. All three changes move along it, so every action of the program does;
* `Workspace.NoStricter`: what was accepted still is. Unlike the above this may also hold where
  permissions were given in between.
-/

namespace LocaleCatalog

namespace Workspace

/-! ## 1. Paths that are accepted -/

/-- The disk does not refuse to change what stands, or might stand, where the path lands. -/
def Accepts (workspace : Workspace) (path : Path) : Prop :=
  workspace.tree.refusals (path.landing workspace.current) = none

instance (workspace : Workspace) (path : Path) : Decidable (workspace.Accepts path) :=
  inferInstanceAs (Decidable (_ = none))

variable {before between after workspace : Workspace} {path : Path}

theorem accepts_iff_of_isPlain (hplain : path.IsPlain) :
    workspace.Accepts path ↔ workspace.tree.refusals (path.placeFrom workspace.current) = none := by
  rw [Accepts, Path.landing_eq_placeFrom hplain]

/-- The disk refuses nothing that it accepted before. -/
structure NoStricter (before after : Workspace) : Prop where
  current : after.current = before.current
  refusals : ∀ place, before.tree.refusals place = none → after.tree.refusals place = none

instance : IsPreorder Workspace NoStricter where
  refl _ := ⟨rfl, fun _ h => h⟩
  trans _ _ _ h h' :=
    ⟨h'.current.trans h.current, fun place hplace => h'.refusals place (h.refusals place hplace)⟩

theorem NoStricter.accepts (h : NoStricter before after) (haccepts : before.Accepts path) :
    after.Accepts path := by
  rw [Accepts, h.current]
  exact h.refusals _ haccepts

/-! ## 2. What is refused -/

/-- What the disk refuses to change is what it was, and it refuses the same as before. -/
structure Heeded (before after : Workspace) : Prop where
  current : after.current = before.current
  refusals : after.tree.refusals = before.tree.refusals
  left : ∀ place, before.tree.refusals place ≠ none →
    after.tree.find? place = before.tree.find? place

theorem Heeded.noStricter (h : Heeded before after) : NoStricter before after :=
  ⟨h.current, fun _ hplace => h.refusals ▸ hplace⟩

/-- The disk accepts after the change what it accepted before it. -/
theorem Heeded.accepts_iff (h : Heeded before after) : after.Accepts path ↔ before.Accepts path := by
  rw [Accepts, h.current, h.refusals]
  rfl

/-- What is another thing than before was not refused. -/
theorem Heeded.refusals_of_ne (h : Heeded before after) {place : Location}
    (hne : after.tree.find? place ≠ before.tree.find? place) :
    before.tree.refusals place = none := by
  by_contra hrefused
  exact hne (h.left place hrefused)

/-- A change of one place that is not refused. -/
theorem heeded_of_place {place : Location} (hcurrent : after.current = before.current)
    (hrefusals : after.tree.refusals = before.tree.refusals)
    (hallowed : before.tree.refusals place = none)
    (hother : ∀ on, on ≠ place → after.tree.find? on = before.tree.find? on) :
    Heeded before after := by
  refine ⟨hcurrent, hrefusals, fun on hrefused => hother on ?_⟩
  rintro rfl
  exact hrefused hallowed

instance : IsPreorder Workspace Heeded where
  refl _ := ⟨rfl, rfl, fun _ _ => rfl⟩
  trans _ _ _ h h' := by
    refine ⟨h'.current.trans h.current, h'.refusals.trans h.refusals, fun place hplace => ?_⟩
    exact (h'.left place (h.refusals ▸ hplace)).trans (h.left place hplace)

end Workspace

/-! ## 3. Changes -/

namespace FileAction

open Workspace (Heeded)

/-- No change touches what the disk refuses. -/
instance : Changes Heeded where
  makeDirectory path before := by
    rcases makeDirectory_cases path before with ⟨error, hrun⟩ | ⟨aim, -, -, hallowed, hrun⟩ <;>
      rw [hrun]
    · exact refl_of Heeded before
    · exact Workspace.heeded_of_place rfl rfl hallowed fun on => FileTree.find?_insert_of_ne
  writeBytes path bytes before := by
    rcases writeBytes_cases path bytes before with
      ⟨error, hrun⟩ | ⟨place, -, -, hallowed, hrun⟩ <;> rw [hrun]
    · exact refl_of Heeded before
    · exact Workspace.heeded_of_place rfl rfl hallowed fun on => FileTree.find?_insert_of_ne
  removeFile path before := by
    rcases removeFile_cases path before with
      ⟨error, hrun⟩ | ⟨-, hrun⟩ | ⟨place, bytes, -, -, hallowed, hrun⟩ <;> rw [hrun]
    · exact refl_of Heeded before
    · exact refl_of Heeded before
    · exact Workspace.heeded_of_place rfl rfl hallowed fun on => FileTree.find?_erase_of_ne

variable {path : Path} {bytes : ByteArray} {before after : Workspace}

/-- What was written was accepted. -/
theorem accepts_of_writeBytes (h : runIn (writeBytes path bytes) before = (.ok (), after)) :
    before.Accepts path := by
  rcases writeBytes_cases path bytes before with
    ⟨error, hrun⟩ | ⟨place, haim, -, hallowed, hrun⟩ <;> rw [h] at hrun <;> cases hrun
  obtain rfl : place = path.landing before.current := target_eq_landing haim
  exact hallowed

/-- A file that was there and could be taken away was accepted. -/
theorem accepts_of_removeFile {removed : Bool} (hread : before.readBytes path = .ok bytes)
    (h : runIn (removeFile path) before = (.ok removed, after)) : before.Accepts path := by
  rcases removeFile_cases path before with
    ⟨error, hrun⟩ | ⟨hmissing, -⟩ | ⟨place, _, haim, -, hallowed, -⟩
  · rw [h] at hrun
    cases hrun
  · rw [Workspace.readBytes_eq_ok, ← Workspace.entryAt_eq_ok, hmissing] at hread
    cases hread
  · obtain rfl : place = path.landing before.current := target_eq_landing haim
    exact hallowed

end FileAction

end LocaleCatalog
