import LocaleCatalog.Proofs.FileTree.Effect

/-!
# Where a path ends, and what is left alone there

There are no links, so even a path that goes up ends at one place, if it can be followed at all
(`Path.landing`). What is known of such a path is less than of a plain one (`Path.placeFrom`): which
directories it needs depends on its spelling.

* `Path.landing_eq_placeFrom`: the landing of a plain path is its place;
* `Workspace.locate_eq_landing`, `FileAction.target_eq_landing`: a path that is located is located at
  its landing, and a change of it is aimed there;
* `Path.exists_landing_div`: names joined to one path land beside each other;
* `Workspace.Preserved written` relates two workspaces: whatever stood at a place outside of
  `written` still stands, and so does every directory. A file is kept where its path does not land
  in `written` (`Workspace.Preserved.readBytes`);
* `FileAction.preserved_of_makeDirectories`, `FileAction.preserved_of_writeBytes` and
  `FileAction.preserved_of_removeFile`: a change preserves all but the place where its path is
  located afterwards.
-/

namespace LocaleCatalog

/-! ## 1. Landings -/

namespace Path

/-- One step on, if it can be made. -/
def advance (place : Location) (segment : String) : Location :=
  if isSilent segment then place
  else if segment = ".." then place.dropLast
  else place ++ [segment]

/-- The place at the end of a path, if the path can be followed. -/
def landing (current : Location) (path : Path) : Location :=
  path.segments.foldl advance (if path.isAbsolute then [] else current)

/-- Pieces that do not go up lead straight on. -/
theorem foldl_advance (place : Location) {segments : List String} (hup : ".." ∉ segments) :
    segments.foldl advance place = place ++ segments.filter fun segment => !isSilent segment := by
  induction segments generalizing place with
  | nil => simp
  | cons segment segments ih =>
    rw [List.mem_cons, not_or] at hup
    rw [List.foldl_cons, ih _ hup.2]
    by_cases hsilent : isSilent segment = true <;> simp [advance, hsilent, Ne.symm hup.1]

/-- A plain path lands at its place. -/
theorem landing_eq_placeFrom {path : Path} (hplain : path.IsPlain) (current : Location) :
    path.landing current = path.placeFrom current :=
  foldl_advance _ (not_mem_segments_of_isPlain hplain)

end Path

theorem FileTree.step_eq_advance {tree : FileTree} {place goal : Location} {segment : String}
    (h : tree.step place segment = .ok goal) : goal = Path.advance place segment := by
  unfold Path.advance
  by_cases hup : segment = ".."
  · subst hup
    rw [if_neg (by decide), if_pos rfl]
    exact eq_of_step_up h
  · obtain ⟨-, rfl⟩ := step_eq_ok h hup
    by_cases hsilent : Path.isSilent segment = true <;> simp [hsilent, hup]

theorem FileTree.follow_eq_foldl {tree : FileTree} {place goal : Location} {segments : List String}
    (h : tree.follow place segments = .ok goal) : goal = segments.foldl Path.advance place := by
  induction segments generalizing place with
  | nil =>
    cases h
    rfl
  | cons segment segments ih =>
    rw [follow_cons] at h
    obtain ⟨next, hstep, hfollow⟩ := bind_eq_ok.1 h
    rw [ih hfollow, step_eq_advance hstep, List.foldl_cons]

/-- A path that is located is located at its landing. -/
theorem Workspace.locate_eq_landing {workspace : Workspace} {path : Path} {place : Location}
    (h : workspace.locate path = .ok place) : place = path.landing workspace.current :=
  FileTree.follow_eq_foldl (locate_eq_ok.1 h).2

/-- A change is aimed where its path lands. -/
theorem FileAction.target_eq_landing {workspace : Workspace} {path : Path} {aim : Target}
    (h : target path workspace = .ok aim) : aim.place = path.landing workspace.current := by
  cases hpath : Workspace.pathError? path with
  | some error =>
    rw [target_of_pathError hpath] at h
    cases h
  | none =>
    obtain ⟨before, slashes, named, hsegments, hslashes, htarget⟩ := target_eq hpath
    rw [htarget] at h
    obtain ⟨place, hplace, rfl⟩ := map_eq_ok.1 h
    have hup : ".." ∉ slashes := fun hmem => absurd (hslashes _ hmem) (by decide)
    have hnone : slashes.filter (fun s => !Path.isSilent s) = [] := by
      rw [List.filter_eq_nil_iff]
      intro s hs
      simp [hslashes s hs, Path.isSilent]
    rw [Path.landing, hsegments, List.foldl_append, Path.foldl_advance _ hup, hnone,
      List.append_nil]
    exact FileTree.follow_eq_foldl hplace

/-! ## 2. Names joined to a path -/

namespace Path

theorem pieces_append_slash (front cs : List Char) :
    pieces (front ++ '/' :: cs) = pieces front ++ pieces cs := by
  induction front with
  | nil => simp [pieces]
  | cons c front ih =>
    rw [List.cons_append, pieces, pieces, ih]
    by_cases hc : c = '/'
    · simp [hc]
    · rw [if_neg hc, if_neg hc]
      cases hpieces : pieces front with
      | nil => exact absurd hpieces (pieces_ne_nil front)
      | cons piece more => simp

theorem pieces_of_not_mem {cs : List Char} (h : '/' ∉ cs) : pieces cs = [cs] := by
  have happend := pieces_append h []
  rwa [List.append_nil, pieces, List.modifyHead_cons, List.append_nil] at happend

/-- What an entry may be called: one piece of a path, which leads one step down. -/
def IsName (name : String) : Prop :=
  '/' ∉ name.toList ∧ isSilent name = false ∧ name ≠ ".."

instance (name : String) : Decidable (IsName name) :=
  inferInstanceAs (Decidable (_ ∧ _))

theorem isAbsolute_of_not_mem {name : String} (h : '/' ∉ name.toList) :
    (⟨name⟩ : Path).isAbsolute = false := by
  have hhead : name.toList.head? ≠ some '/' := fun hhead => h (List.mem_of_head? hhead)
  simp [isAbsolute, hhead]

theorem IsName.ne_nil {name : String} (h : IsName name) : name.toList ≠ [] := by
  intro heq
  have hsilent := h.2.1
  rw [String.toList_eq_nil_iff.1 heq] at hsilent
  exact absurd hsilent (by decide)

theorem IsName.ne_dot {name : String} (h : IsName name) : name ≠ "." := by
  intro heq
  have hsilent := h.2.1
  rw [heq] at hsilent
  exact absurd hsilent (by decide)

theorem IsName.isAbsolute {name : String} (h : IsName name) :
    (⟨name⟩ : Path).isAbsolute = false :=
  isAbsolute_of_not_mem h.1

/-- A path up to the slash that other paths are put behind. -/
def front (base : Path) : List Char :=
  if base.text.toList.getLast? = some '/' then base.text.toList.dropLast else base.text.toList

/-- A path that ends with a name does not end with a slash. -/
theorem front_of_append {path : Path} {name : String} (front : List Char) (hname : IsName name)
    (h : path.text.toList = front ++ name.toList) : path.front = path.text.toList := by
  have hlast : path.text.toList.getLast? ≠ some '/' := by
    rw [h, List.getLast?_append, List.getLast?_eq_some_getLast hname.ne_nil, Option.some_or]
    intro heq
    exact hname.1 (Option.some_inj.1 heq ▸ List.getLast_mem hname.ne_nil)
  exact if_neg hlast

/-- A relative path is put behind a slash. -/
theorem toList_join {base path : Path} (hbase : base.text ≠ "") (hpath : path.isAbsolute = false) :
    (base.join path).text.toList = base.front ++ '/' :: path.text.toList := by
  unfold join front
  rw [if_neg (by simp [hpath])]
  by_cases hslash : base.text.toList.getLast? = some '/'
  · obtain ⟨front, hfront⟩ := List.getLast?_eq_some_iff.1 hslash
    simp [hfront]
  · simp [hbase, hslash]

/-- A path starts at the root if what stands before its slash does. -/
theorem isAbsolute_eq {path : Path} {front cs : List Char}
    (h : path.text.toList = front ++ '/' :: cs) :
    path.isAbsolute = decide ((front ++ ['/']).head? = some '/') := by
  rw [isAbsolute, h]
  cases front <;> simp

/-- Names joined to one path land beside each other. -/
theorem exists_landing_div (base : Path) (current : Location) :
    ∃ above : Location, ∀ name, IsName name →
      (base / name).landing current = above ++ [name] := by
  have hadvance (above : Location) {name : String} (h : IsName name) :
      advance above name = above ++ [name] := by
    simp [advance, h.2.1, h.2.2]
  by_cases hempty : base.text = ""
  · refine ⟨current, fun name h => ?_⟩
    have hjoin : base / name = ⟨name⟩ := by
      show join base ⟨name⟩ = _
      simp [join, h.isAbsolute, hempty]
    rw [hjoin, landing, segments, pieces_of_not_mem h.1, h.isAbsolute]
    simpa using hadvance current h
  · refine ⟨((pieces base.front).map String.ofList).foldl advance
      (if (base.front ++ ['/']).head? = some '/' then [] else current), fun name h => ?_⟩
    have htext := @toList_join base ⟨name⟩ hempty h.isAbsolute
    show (base.join ⟨name⟩).landing current = _
    rw [landing, segments, isAbsolute_eq htext, htext, pieces_append_slash, pieces_of_not_mem h.1,
      List.map_append, List.foldl_append]
    simpa using hadvance _ h

end Path

/-! ## 3. What is preserved -/

namespace Workspace

/-- Whatever stood outside of some places still stands, and so does every directory. -/
structure Preserved (written : Set Location) (before after : Workspace) : Prop where
  current : after.current = before.current
  entry : ∀ place ∉ written, ∀ entry,
    before.tree.find? place = some entry → after.tree.find? place = some entry
  directory : ∀ place,
    before.tree.find? place = some .directory → after.tree.find? place = some .directory

namespace Preserved

variable {written written' : Set Location} {before between after : Workspace} {path : Path}
  {place : Location}

theorem refl (written : Set Location) (workspace : Workspace) :
    Preserved written workspace workspace :=
  ⟨rfl, fun _ _ _ h => h, fun _ h => h⟩

theorem trans (h : Preserved written before between) (h' : Preserved written between after) :
    Preserved written before after :=
  ⟨h'.current.trans h.current,
    fun place hplace entry hentry => h'.entry place hplace entry (h.entry place hplace entry hentry),
    fun place hplace => h'.directory place (h.directory place hplace)⟩

theorem mono (h : Preserved written before after) (hwritten : written ⊆ written') :
    Preserved written' before after :=
  ⟨h.current, fun place hplace => h.entry place fun hmem => hplace (hwritten hmem), h.directory⟩

/-- What was located is located at the same place. -/
theorem locate (h : Preserved written before after) (hlocate : before.locate path = .ok place) :
    after.locate path = .ok place :=
  locate_of_kept hlocate h.current h.directory

/-- A file can still be read if nothing was written where its path lands. -/
theorem readBytes (h : Preserved written before after) {bytes : ByteArray}
    (hplace : path.landing before.current ∉ written) (hread : before.readBytes path = .ok bytes) :
    after.readBytes path = .ok bytes := by
  obtain ⟨place, hlocate, hfile⟩ := readBytes_eq_ok.1 hread
  rw [← locate_eq_landing hlocate] at hplace
  exact readBytes_eq_ok.2 ⟨place, h.locate hlocate, h.entry place hplace _ hfile⟩

/-- New directories destroy nothing. -/
theorem of_changed {reached : Set Location} (h : Changed ∅ reached before after) :
    Preserved ∅ before after :=
  ⟨h.current, fun _ hplace _ hentry => h.find?_of_find? hplace hentry,
    fun place hentry => h.find?_of_find? (Set.notMem_empty place) hentry⟩

/-- A change of one place that is no directory preserves all others. -/
theorem of_place (hcurrent : after.current = before.current)
    (hfree : before.tree.find? place ≠ some .directory)
    (hother : ∀ on, on ≠ place → after.tree.find? on = before.tree.find? on) :
    Preserved {place} before after := by
  refine ⟨hcurrent, fun on hon entry hentry => (hother on hon).trans hentry, fun on hentry => ?_⟩
  have hne : on ≠ place := by
    intro heq
    exact hfree (heq ▸ hentry)
  exact (hother on hne).trans hentry

/-- The same, with the place named by a path. -/
theorem of_located (h : Preserved {place} before after) (hlocate : before.locate path = .ok place) :
    Preserved {place | after.locate path = .ok place} before after :=
  h.mono (Set.singleton_subset_iff.2 (h.locate hlocate))

end Preserved

end Workspace

/-! ## 4. What the changes preserve -/

namespace FileAction

open Workspace (Preserved)

variable {path : Path} {before after : Workspace}

/-- A directory is made where nothing stood. -/
theorem within_makeDirectory_anywhere (current : Location) (path : Path) :
    Within current ∅ Set.univ (makeDirectory path) := by
  intro before _
  rcases makeDirectory_cases path before with ⟨error, hrun⟩ | ⟨aim, -, hnone, -, hrun⟩
  · rw [hrun]
    exact .refl _ _ before
  · rw [hrun]
    exact @changed_insert_directory ∅ Set.univ (aim.place ++ [""]) before aim.place hnone
      (Set.mem_univ _) (List.prefix_append _ _) (by simp)

theorem preserved_of_makeDirectories {result : Except IoError Unit}
    (h : runIn (makeDirectories path) before = (result, after)) : Preserved ∅ before after :=
  .of_changed <| Moves.changed
    (moves_makeDirectoriesFrom fun other _ _ => within_makeDirectory_anywhere _ other) h

theorem preserved_of_writeBytes {bytes : ByteArray}
    (h : runIn (writeBytes path bytes) before = (.ok (), after)) :
    Preserved {place | after.locate path = .ok place} before after := by
  rcases writeBytes_cases path bytes before with ⟨error, hrun⟩ | ⟨place, haim, hfree, -, hrun⟩ <;>
    rw [h] at hrun <;> cases hrun
  obtain ⟨slashes, -, hnone, hlocate⟩ := locate_of_target haim
  obtain rfl := hnone.1 rfl
  exact .of_located (.of_place rfl hfree fun on hon => FileTree.find?_insert_of_ne hon) hlocate

theorem preserved_of_removeFile {removed : Bool}
    (h : runIn (removeFile path) before = (.ok removed, after)) :
    Preserved {place | after.locate path = .ok place} before after := by
  rcases removeFile_cases path before with
    ⟨error, hrun⟩ | ⟨-, hrun⟩ | ⟨place, bytes, haim, hfile, -, hrun⟩ <;>
    rw [h] at hrun <;> cases hrun
  · exact .refl _ _
  · obtain ⟨slashes, -, hnone, hlocate⟩ := locate_of_target haim
    obtain rfl := hnone.1 rfl
    have hfree : before.tree.find? place ≠ some .directory := by simp [hfile]
    exact .of_located (.of_place rfl hfree fun on hon => FileTree.find?_erase_of_ne hon) hlocate

end FileAction

end LocaleCatalog
