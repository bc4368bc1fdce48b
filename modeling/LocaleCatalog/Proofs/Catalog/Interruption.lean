import LocaleCatalog.Proofs.Catalog.Open

/-!
# Runs that are interrupted

A run writes one store after the other. `Catalog.Interrupted` says of a workspace that such a run
may have been stopped in it: the stores of some locales hold what they hold in the end, the other
files of the catalog are what they were, some of the directories were made already, and the disk
refuses no more than it did.

* `Catalog.Interrupted.entryAt_eq`: a file that was not written yet is found as it was, or is still
  not found;
* `Catalog.Interrupted.isOpen`: all files that the run writes can be written from there;
* `Catalog.Interrupted.of_changed`: it is still an interrupted run when more stores are written.

All this needs a tree as it stands on a disk (`Disk`): a directory that is made must not bring anything
to light.
-/

namespace LocaleCatalog

open Workspace (Changed Kept Heeded NoStricter)

/-! ## 1. Files that were loaded -/

section Loaded

variable {α : Type} {reader : Json.Reader α} {path : Path} {before after : Workspace}
  {value : Option α}

/-- What could be read is a file, or is not there. -/
theorem entryAt_of_readFile (h : readFile reader path before = .ok value) :
    (∃ bytes, before.readBytes path = .ok bytes) ∨ before.entryAt path = .error .notFound := by
  cases hentry : before.entryAt path with
  | ok entry =>
    cases entry with
    | file bytes =>
      exact .inl ⟨bytes, by rw [Workspace.readBytes_eq_ok, ← Workspace.entryAt_eq_ok, hentry]⟩
    | directory =>
      have hread : before.readText path = .error .isDirectory := by
        unfold Workspace.readText Workspace.readBytes
        rw [hentry]
        rfl
      unfold readFile at h
      rw [hread] at h
      cases h
  | error error =>
    have hread : before.readText path = .error error := by
      unfold Workspace.readText Workspace.readBytes
      rw [hentry]
      rfl
    unfold readFile at h
    rw [hread] at h
    cases error <;> first | exact .inr rfl | cases h

/-- What is found alike is read alike. -/
theorem readFile_of_entryAt (h : after.entryAt path = before.entryAt path) :
    readFile reader path after = readFile reader path before :=
  readFile_congr (Workspace.readBytes_congr h)

theorem Catalog.loadStore_of_entryAt {catalog : Catalog} {locale : String}
    (h : after.entryAt (catalog.storePath locale) = before.entryAt (catalog.storePath locale)) :
    catalog.loadStore locale after = catalog.loadStore locale before := by
  unfold Catalog.loadStore
  rw [readFile_of_entryAt h]

/-- No directory stands where a file could be read, or could be missing. -/
theorem Disk.find?_ne_directory_of_readFile (disk : Disk) (hplain : path.IsPlain)
    (hcurrent : after.current = disk.current) {bytes : ByteArray}
    (hread : after.readBytes path = .ok bytes) (h : readFile reader path disk = .ok value) :
    disk.tree.find? (path.placeFrom disk.current) ≠ some .directory := by
  intro hdir
  obtain ⟨place, hlocate, hfile⟩ := Workspace.readBytes_eq_ok.1 hread
  have hplace : place = path.placeFrom disk.current :=
    hcurrent ▸ Workspace.locate_eq_place hlocate hplain
  have hlocate' : disk.locate path = .ok place := by
    refine Workspace.locate_of_directories hlocate hplain hcurrent.symm fun on hon hdir' => ?_
    refine disk.find?_of_prefix (by rw [hplace, hdir]; rfl) hon ?_
    rintro rfl
    rw [hdir'] at hfile
    cases hfile
  have hentry : disk.entryAt path = .ok .directory :=
    Workspace.entryAt_eq_ok.2 ⟨place, hlocate', hplace ▸ hdir⟩
  rcases entryAt_of_readFile h with ⟨bytes, hbytes⟩ | hnone
  · rw [Workspace.readBytes_eq_ok, ← Workspace.entryAt_eq_ok, hentry] at hbytes
    cases hbytes
  · rw [hentry] at hnone
    cases hnone

end Loaded

namespace Catalog

variable {catalog : Catalog} {before stopped after between : Workspace} {locales : List String}
  {written reached : Set Location} {path : Path} {locale : String}

/-! ## 2. Interrupted runs -/

/-- A run from `before` to `after` may have been stopped here, when the stores of some locales were
    written. -/
structure Interrupted (catalog : Catalog) (locales : List String)
    (before after stopped : Workspace) : Prop where
  /-- No other file is another one. -/
  changed : Changed (catalog.storePlaces before.current locales) (catalog.places before.current)
    before stopped
  /-- What was written is what stands there in the end. -/
  stores : ∀ locale ∈ locales,
    stopped.entryAt (catalog.storePath locale) = after.entryAt (catalog.storePath locale)
  /-- The directories that were made are still there in the end. -/
  made : ∀ place, before.tree.find? place = none → stopped.tree.find? place = some .directory →
    after.tree.find? place = some .directory
  noStricter : NoStricter before stopped

/-- A run is interrupted where it has written some stores, if the rest of it leaves these alone. -/
theorem Apart.interrupted (hapart : catalog.Apart before.current)
    (hlocales : locales ⊆ catalog.locales.locales)
    (hfirst : Changed (catalog.storePlaces before.current locales) (catalog.places before.current)
      before stopped)
    (hrest : Changed (catalog.places before.current) (catalog.places before.current) stopped after)
    (hread : ∀ locale ∈ locales, ∃ bytes, stopped.readBytes (catalog.storePath locale) = .ok bytes ∧
      after.readBytes (catalog.storePath locale) = .ok bytes)
    (hnoStricter : NoStricter before stopped) :
    catalog.Interrupted locales before after stopped := by
  refine ⟨hfirst, fun locale hlocale => ?_, fun place hnone hdir => ?_, hnoStricter⟩
  · obtain ⟨bytes, hstopped, hafter⟩ := hread locale hlocale
    rw [Workspace.readBytes_eq_ok, ← Workspace.entryAt_eq_ok] at hstopped hafter
    rw [hstopped, hafter]
  · -- a directory that was made is on the way to a file, so nothing is written there later on
    refine hrest.find?_of_find? ?_ hdir
    rintro ⟨path, hpath, rfl⟩
    by_cases hfile : path.placeFrom before.current ∈ catalog.storePlaces before.current locales
    · obtain ⟨locale, hlocale, heq⟩ := hfile
      obtain ⟨bytes, hstopped, -⟩ := hread locale hlocale
      obtain ⟨place, hlocate, hfile⟩ := Workspace.readBytes_eq_ok.1 hstopped
      rw [Workspace.locate_eq_place hlocate (hapart.plain_store (hlocales hlocale)),
        hfirst.current] at hfile
      rw [← heq, storePlace, hfile] at hdir
      cases hdir
    · rcases hfirst.elsewhere _ hfile with hsame | ⟨-, -, goal, hgoal, hon, hne⟩
      · rw [hsame, hnone] at hdir
        cases hdir
      · exact hne (hapart.eq_of_prefix hpath hgoal hon)

section Stopped

variable (hapart : catalog.Apart before.current)
  (hafter : Changed (catalog.places before.current) (catalog.places before.current) before after)
  (hlocales : locales ⊆ catalog.locales.locales)
  (h : catalog.Interrupted locales before after stopped)

include hapart hafter hlocales h

/-- What stands on the way to a file of the catalog when the run was stopped stands there in the
    end, too, or something is missing. -/
theorem Interrupted.find?_on_way (hpath : path ∈ catalog.paths) {on : Location}
    (hon : on <+: path.placeFrom before.current) (hne : on ≠ path.placeFrom before.current) :
    stopped.tree.find? on = after.tree.find? on ∨ stopped.tree.find? on = none := by
  have hplaces : on ∉ catalog.places before.current := by
    rintro ⟨other, hother, rfl⟩
    exact hne (hapart.eq_of_prefix hother ⟨path, hpath, rfl⟩ hon)
  have hwritten : on ∉ catalog.storePlaces before.current locales :=
    fun hmem => hplaces (storePlaces_subset_places hlocales hmem)
  rcases h.changed.elsewhere on hwritten with hsame | ⟨hnone, hdir, -⟩
  · rcases hafter.elsewhere on hplaces with hsame' | ⟨hnone, -⟩
    · exact .inl (hsame.trans hsame'.symm)
    · exact .inr (hsame.trans hnone)
  · exact .inl (hdir.trans (h.made on hnone hdir).symm)

omit hafter in
/-- A file that was not written yet is kept. -/
theorem Interrupted.kept (hpath : path ∈ catalog.paths)
    (hunwritten : ∀ locale ∈ locales, catalog.storePath locale ≠ path) :
    Kept path before stopped := by
  refine h.changed.kept (hapart.plain path hpath) ?_ fun goal hgoal hon =>
    hapart.eq_of_prefix hpath hgoal hon
  rintro _ ⟨locale, hlocale, rfl⟩
  exact hapart.not_prefix (storePath_mem_paths (hlocales hlocale)) hpath (hunwritten locale hlocale)

end Stopped

/-! ## 3. Runs on a disk -/

variable {disk : Disk}

/-- Above a file there are directories, if the run to there started on a disk. -/
theorem Apart.find?_above (hapart : catalog.Apart disk.current)
    (hafter : Changed (catalog.places disk.current) (catalog.places disk.current) disk after)
    (hpath : path ∈ catalog.paths) {bytes : ByteArray} (hread : after.readBytes path = .ok bytes)
    {on : Location} (hon : on <+: path.placeFrom disk.current)
    (hne : on ≠ path.placeFrom disk.current) : after.tree.find? on = some .directory := by
  have hplain := hapart.plain path hpath
  have hcurrent := hafter.current
  have hstart : after.startOf path = disk.startOf path := by
    unfold Workspace.startOf
    rw [hcurrent]
  have hbehind : disk.startOf path <+: path.placeFrom disk.current := List.prefix_append _ _
  rcases List.prefix_or_prefix_of_prefix hbehind hon with hdown | hup
  · exact Workspace.find?_above_of_readBytes hplain hread (hstart ▸ hdown) (hcurrent ▸ hon)
      (hcurrent ▸ hne)
  · -- above the place where the path starts, the directories stood before
    refine hafter.find?_of_find? ?_ ?_
    · rintro ⟨other, hother, rfl⟩
      exact hne (hapart.eq_of_prefix hother ⟨path, hpath, rfl⟩ hon)
    · by_cases heq : on = disk.startOf path
      · rw [heq]
        exact disk.find?_startOf path
      · exact disk.find?_of_prefix (by rw [disk.find?_startOf path]; rfl) hup heq

section Stopped

variable (hapart : catalog.Apart disk.current)
  (hafter : Changed (catalog.places disk.current) (catalog.places disk.current) disk after)
  (hlocales : locales ⊆ catalog.locales.locales)
  (h : catalog.Interrupted locales disk after stopped)

include hapart hafter hlocales h

/-- A file that was not written yet is found as it was, or is still not found, if it is found or not
    found in the end. -/
theorem Interrupted.entryAt_eq {α : Type} {reader : Json.Reader α} {value : Option α}
    (hpath : path ∈ catalog.paths)
    (hunwritten : ∀ locale ∈ locales, catalog.storePath locale ≠ path)
    (hload : readFile reader path disk = .ok value)
    (hend : (∃ entry, after.entryAt path = .ok entry) ∨ after.entryAt path = .error .notFound) :
    stopped.entryAt path = disk.entryAt path := by
  have hplain := hapart.plain path hpath
  rcases entryAt_of_readFile hload with ⟨bytes, hbytes⟩ | hnone
  · rw [Workspace.readBytes_eq_ok, ← Workspace.entryAt_eq_ok] at hbytes
    rw [hbytes]
    refine h.changed.entryAt_eq hplain ?_ hbytes
    rintro _ ⟨locale, hlocale, rfl⟩
    exact hapart.not_prefix (storePath_mem_paths (hlocales hlocale)) hpath
      (hunwritten locale hlocale)
  · rw [hnone]
    exact disk.entryAt_of_less hplain hnone h.changed.current hafter.current
      (h.kept hapart hlocales hpath hunwritten).entry
      (fun on hon hne => h.find?_on_way hapart hafter hlocales hpath hon hne) hend

/-- A file that stands in the end can be written where the run was stopped, if it could be loaded at
    first and the run touched nothing that the disk refuses. -/
theorem Interrupted.isOpen (hheeded : Heeded disk after) {α : Type} {reader : Json.Reader α}
    {value : Option α} (hpath : path ∈ catalog.paths)
    (hload : readFile reader path disk = .ok value) (haccepts : disk.Accepts path)
    {bytes : ByteArray} (hread : after.readBytes path = .ok bytes) : stopped.Open path := by
  have hplain := hapart.plain path hpath
  have hcurrent := h.changed.current
  have hstart : stopped.startOf path = disk.startOf path := by
    unfold Workspace.startOf
    rw [hcurrent]
  have hbehind : disk.startOf path <+: path.placeFrom disk.current := List.prefix_append _ _
  have hlower : disk.startOf path ≠ path.placeFrom disk.current := fun heq =>
    (Workspace.exists_target_of_readBytes hplain hread).2 (List.self_eq_append_right.1 heq)
  have hnotStore : ∀ on, on <+: path.placeFrom disk.current → on ≠ path.placeFrom disk.current →
      on ∉ catalog.storePlaces disk.current locales := by
    intro on hon hne hmem
    obtain ⟨other, hother, rfl⟩ := storePlaces_subset_places hlocales hmem
    exact hne (hapart.eq_of_prefix hother ⟨path, hpath, rfl⟩ hon)
  constructor
  case nameable => exact ⟨after, bytes, hafter.current.trans hcurrent.symm, hread⟩
  case clear =>
    rw [hstart, hcurrent]
    constructor
    · exact h.changed.find?_of_find? (hnotStore _ hbehind hlower) (disk.find?_startOf path)
    · intro on _ hon hne
      have hdir := hapart.find?_above hafter hpath hread hon hne
      rcases h.find?_on_way hapart hafter hlocales hpath hon hne with hsame | hnone
      · exact .inl (hsame.trans hdir)
      · -- the directory is still to be made, as the whole run did
        refine .inr ⟨hnone, h.noStricter.refusals on (hheeded.refusals_of_ne fun hsame => ?_)⟩
        rw [h.changed.find?_of_find? (hnotStore on hon hne) (hsame.symm.trans hdir)] at hnone
        cases hnone
  case accepted => exact h.noStricter.accepts haccepts
  case free =>
    rw [hcurrent]
    by_cases hwritten : ∃ locale ∈ locales, catalog.storePath locale = path
    · obtain ⟨locale, hlocale, rfl⟩ := hwritten
      have hentry := h.stores locale hlocale
      rw [Workspace.readBytes_eq_ok, ← Workspace.entryAt_eq_ok] at hread
      rw [hread, Workspace.entryAt_eq_ok] at hentry
      obtain ⟨place, hlocate, hfile⟩ := hentry
      rw [← hcurrent, ← Workspace.locate_eq_place hlocate hplain, hfile]
      nofun
    · have hunwritten : ∀ locale ∈ locales, catalog.storePath locale ≠ path :=
        fun locale hlocale heq => hwritten ⟨locale, hlocale, heq⟩
      rw [(h.kept hapart hlocales hpath hunwritten).entry]
      exact disk.find?_ne_directory_of_readFile hplain hafter.current hread hload

/-- The run is still interrupted when more stores were written. -/
theorem Interrupted.of_changed {more : List String} (hmore : more ⊆ catalog.locales.locales)
    (hchanged : Changed (catalog.storePlaces disk.current more)
      (catalog.storePlaces disk.current more) stopped between)
    (hread : ∀ locale ∈ locales ++ more, ∃ bytes,
      between.readBytes (catalog.storePath locale) = .ok bytes ∧
        after.readBytes (catalog.storePath locale) = .ok bytes)
    (hnoStricter : NoStricter stopped between) :
    catalog.Interrupted (locales ++ more) disk after between := by
  have hall : locales ++ more ⊆ catalog.locales.locales := List.append_subset.2 ⟨hlocales, hmore⟩
  constructor
  case changed =>
    exact (h.changed.mono (storePlaces_subset (List.subset_append_left _ _)) (le_refl _)).trans
      (hchanged.mono (storePlaces_subset (List.subset_append_right _ _))
        (storePlaces_subset_places hmore))
  case noStricter => exact trans_of NoStricter h.noStricter hnoStricter
  case stores =>
    intro locale hlocale
    obtain ⟨bytes, hbetween, hend⟩ := hread locale hlocale
    rw [Workspace.readBytes_eq_ok, ← Workspace.entryAt_eq_ok] at hbetween hend
    rw [hbetween, hend]
  case made =>
    intro place hnone hdir
    have hread' {locale : String} (hlocale : locale ∈ more) :=
      hread locale (List.mem_append_right _ hlocale)
    by_cases hwritten : place ∈ catalog.storePlaces disk.current more
    · -- a file stands there
      obtain ⟨locale, hlocale, rfl⟩ := hwritten
      obtain ⟨bytes, hbetween, -⟩ := hread' hlocale
      obtain ⟨place, hlocate, hfile⟩ := Workspace.readBytes_eq_ok.1 hbetween
      rw [Workspace.locate_eq_place hlocate (hapart.plain_store (hmore hlocale)), hchanged.current,
        h.changed.current] at hfile
      rw [storePlace, hfile] at hdir
      cases hdir
    · rcases hchanged.elsewhere place hwritten with hsame | ⟨-, -, goal, ⟨locale, hlocale, rfl⟩, hon, hne⟩
      · exact h.made place hnone (hsame ▸ hdir)
      · obtain ⟨bytes, -, hend⟩ := hread' hlocale
        exact hapart.find?_above hafter (storePath_mem_paths (hmore hlocale)) hend hon hne

end Stopped

end Catalog

end LocaleCatalog
