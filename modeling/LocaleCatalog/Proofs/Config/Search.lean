import Mathlib.Data.List.Infix
import LocaleCatalog.Config.Locate
import LocaleCatalog.Proofs.FileTree.Absolute

/-!
# The configuration file of a directory

The search for a configuration goes up along the paths of the directories, and looks for two entries
in each of them. What it finds can be said of the tree alone:

* `Config.Shows`: an entry stands in a directory, where it can be looked up;
* `Config.Governs`: the file of a directory above governs a directory, if neither another file nor
  the top of a project comes before it. At most one does (`Config.Governs.eq`);
* `Config.Searched`, `Config.find?_spec`: the search finds the file that governs the directory, and
  none just if there is none;
* `Config.StartsIn.load_of_governs`, `Config.StartsIn.load_of_free`: its settings are loaded, or
  else the defaults.
-/

namespace LocaleCatalog.Config

/-! ## 1. The file that governs a directory -/

/-- An entry of this name stands in the directory, under a path that is not too long to be looked
    up. -/
def Shows (tree : FileTree) (directory : Location) (name : String) : Prop :=
  (tree.find? (directory ++ [name])).isSome = true ∧ (Location.path (directory ++ [name])).IsShort

instance (tree : FileTree) (directory : Location) (name : String) :
    Decidable (Shows tree directory name) :=
  inferInstanceAs (Decidable (_ ∧ _ ≤ _))

/-- The directory `above` has the configuration file that governs the directory `place`: it is the
    first with such a file from `place` on, and the top of a project does not come before it. -/
structure Governs (tree : FileTree) (place above : Location) : Prop where
  lies : above <+: place
  file : Shows tree above fileName
  nearest : ∀ on, above <+: on → on <+: place → on ≠ above →
    ¬ Shows tree on fileName ∧ ¬ Shows tree on topMark

variable {tree : FileTree} {place above other : Location} {name : String}

/-- It is enough to look at the directories that the place lies in. -/
theorem governs_iff : Governs tree place above ↔ above <+: place ∧ Shows tree above fileName ∧
    ∀ on ∈ place.inits, above <+: on → on ≠ above →
      ¬ Shows tree on fileName ∧ ¬ Shows tree on topMark := by
  simp only [List.mem_inits]
  exact ⟨fun h => ⟨h.lies, h.file, fun on hon hbehind hne => h.nearest on hbehind hon hne⟩,
    fun h => ⟨h.1, h.2.1, fun on hbehind hon hne => h.2.2 on hon hbehind hne⟩⟩

instance (tree : FileTree) (place above : Location) : Decidable (Governs tree place above) :=
  decidable_of_iff _ governs_iff.symm

/-- There is one such directory at most. -/
theorem Governs.eq (h : Governs tree place above) (h' : Governs tree place other) :
    above = other := by
  by_contra hne
  rcases List.prefix_or_prefix_of_prefix h.lies h'.lies with hon | hon
  · exact (h.nearest other hon h'.lies (Ne.symm hne)).1 h'.file
  · exact (h'.nearest above hon h.lies hne).1 h.file

theorem governs_self (h : Shows tree place fileName) : Governs tree place place := by
  refine ⟨List.prefix_refl _, h, fun on hbehind hon hne => ?_⟩
  exact absurd (hon.eq_of_length_le hbehind.length_le) hne

/-- Behind the top of a project nothing governs, nor above the root. -/
theorem not_governs (hfile : ¬ Shows tree place fileName)
    (htop : place = [] ∨ Shows tree place topMark) : ¬ Governs tree place above := by
  intro h
  by_cases heq : place = above
  · exact hfile (heq ▸ h.file)
  · rcases htop with rfl | hmark
    · exact heq (List.prefix_nil.1 h.lies).symm
    · exact (h.nearest place h.lies (List.prefix_refl _) heq).2 hmark

/-- A directory that shows neither is governed as the one that it lies in. -/
theorem governs_concat_iff (hfile : ¬ Shows tree (place ++ [name]) fileName)
    (hmark : ¬ Shows tree (place ++ [name]) topMark) :
    Governs tree (place ++ [name]) above ↔ Governs tree place above := by
  constructor
  · intro h
    have hon := (List.prefix_concat_iff.1 h.lies).resolve_left fun heq => hfile (heq ▸ h.file)
    exact ⟨hon, h.file, fun on hbehind hon' hne =>
      h.nearest on hbehind (hon'.trans (List.prefix_append _ _)) hne⟩
  · intro h
    refine ⟨h.lies.trans (List.prefix_append _ _), h.file, fun on hbehind hon hne => ?_⟩
    rcases List.prefix_concat_iff.1 hon with rfl | hon
    · exact ⟨hfile, hmark⟩
    · exact h.nearest on hbehind hon hne

/-! ## 2. The search -/

/-- The configuration file of a directory. -/
def fileOf (directory : Location) : Path :=
  Location.path directory / fileName

/-- What a search from the directory has found: the file that governs it, or that there is none. -/
inductive Searched (workspace : Workspace) (place : Location) : Option Path → Prop where
  | file {above : Location} (h : Governs workspace.tree place above) :
      Searched workspace place (some (fileOf above))
  | none (h : ∀ above, ¬ Governs workspace.tree place above) : Searched workspace place none

/-- A directory that shows neither is searched as the one that it lies in. -/
theorem Searched.concat {workspace : Workspace} {found : Option Path}
    (h : Searched workspace place found)
    (hfile : ¬ Shows workspace.tree (place ++ [name]) fileName)
    (hmark : ¬ Shows workspace.tree (place ++ [name]) topMark) :
    Searched workspace (place ++ [name]) found := by
  cases h with
  | file h => exact .file ((governs_concat_iff hfile hmark).2 h)
  | none h => exact .none fun above habove => h above ((governs_concat_iff hfile hmark).1 habove)

theorem isEntryName_fileName : IsEntryName fileName := by
  decide

theorem isEntryName_topMark : IsEntryName topMark := by
  decide

variable {disk : Disk} {start : Path}

section Directories

variable (hdirectory : disk.tree.find? place = some .directory)

include hdirectory

theorem isEntryName_of_directory : ∀ name ∈ place, IsEntryName name :=
  disk.wellFormed.names place (by rw [hdirectory]; rfl)

theorem isName_of_directory : ∀ name ∈ place, Path.IsName name :=
  fun name hname => (isEntryName_of_directory hdirectory name hname).isName

/-- An entry is found at its path in a directory just if the directory shows it. -/
theorem contains_div_iff (hname : IsEntryName name) :
    disk.contains (Location.path place / name) = true ↔ Shows disk.tree place name := by
  have hsome : (disk.tree.find? place).isSome = true := by rw [hdirectory]; rfl
  rw [Location.path_div (isName_of_directory hdirectory) hname.isName]
  refine Workspace.contains_path_iff ?_ fun on hon hne => ?_
  · exact List.forall_mem_append.2
      ⟨isEntryName_of_directory hdirectory, List.forall_mem_singleton.2 hname⟩
  · have hon := (List.prefix_concat_iff.1 hon).resolve_left hne
    by_cases heq : on = place
    · rw [heq, hdirectory]
    · exact disk.find?_of_prefix hsome hon heq

/-- A directory is searched for the file, then for the mark, and then the one that it lies in. -/
theorem find?_path : find? disk (Location.path place) =
    if Shows disk.tree place fileName then some (fileOf place)
    else if Shows disk.tree place topMark then none
    else findIn disk (Location.path place).ancestors := by
  rw [find?, findIn]
  have hfile := contains_div_iff hdirectory isEntryName_fileName
  have hmark := contains_div_iff hdirectory isEntryName_topMark
  exact if_congr hfile rfl (if_congr hmark rfl rfl)

/-- The search ends where one of the two is found. -/
theorem find?_of_shows
    (h : Shows disk.tree place fileName ∨ Shows disk.tree place topMark) :
    Searched disk place (find? disk (Location.path place)) := by
  rw [find?_path hdirectory]
  by_cases hfile : Shows disk.tree place fileName
  · rw [if_pos hfile]
    exact .file (governs_self hfile)
  · have hmark := h.resolve_left hfile
    rw [if_neg hfile, if_pos hmark]
    exact .none fun _ => not_governs hfile (.inr hmark)

/-- The search finds the file that governs the directory, if there is one. -/
theorem find?_spec : Searched disk place (find? disk (Location.path place)) := by
  induction place using List.reverseRecOn with
  | nil =>
    by_cases hshown : Shows disk.tree [] fileName ∨ Shows disk.tree [] topMark
    · exact find?_of_shows hdirectory hshown
    · obtain ⟨hfile, hmark⟩ := not_or.1 hshown
      rw [find?_path hdirectory, if_neg hfile, if_neg hmark,
        Location.ancestors_path_nil]
      exact .none fun _ => not_governs hfile (.inl rfl)
  | append_singleton outer name ih =>
    by_cases hshown : Shows disk.tree (outer ++ [name]) fileName ∨
        Shows disk.tree (outer ++ [name]) topMark
    · exact find?_of_shows hdirectory hshown
    · obtain ⟨hfile, hmark⟩ := not_or.1 hshown
      have hnames := List.forall_mem_append.1 (isName_of_directory hdirectory)
      have hnext := ih (disk.wellFormed.above outer name (by rw [hdirectory]; rfl))
      rw [find?_path hdirectory, if_neg hfile, if_neg hmark,
        Location.ancestors_path hnames.1 (hnames.2 name (List.mem_singleton_self name))]
      exact hnext.concat hfile hmark

end Directories

/-! ## 3. Loading -/

/-- The settings in the configuration file of a directory, whose paths start from there. -/
def settingsIn (workspace : Workspace) (directory : Location) : Except Error Loaded := do
  let text ← (workspace.readText (fileOf directory)).mapError (.unreadable (fileOf directory))
  let config ← (ofText text).mapError (.malformed (fileOf directory))
  return ⟨config, Location.path directory, true⟩

/-- The path names a directory. -/
structure StartsIn (workspace : Workspace) (start : Path) (place : Location) : Prop where
  located : workspace.locate start = .ok place
  directory : workspace.tree.find? place = some .directory

namespace StartsIn

variable (h : StartsIn disk start place)

include h

/-- The search starts from the absolute path of the directory. -/
theorem absolute_eq : disk.absolute start = .ok (Location.path place) :=
  Workspace.absolute_eq h.located (by rw [h.directory]; rfl)

/-- Where a file governs the directory, its settings are loaded. -/
theorem load_of_governs (hgoverns : Governs disk.tree place above) :
    load disk start = settingsIn disk above := by
  have habove : disk.tree.find? above = some .directory := by
    by_cases heq : above = place
    · rw [heq, h.directory]
    · exact disk.find?_of_prefix (by rw [h.directory]; rfl) hgoverns.lies heq
  have hfound : find? disk (Location.path place) = some (fileOf above) := by
    have hsearched := find?_spec h.directory
    generalize find? disk (Location.path place) = found at hsearched
    cases hsearched with
    | file hother => rw [hgoverns.eq hother]
    | none hnone => exact absurd hgoverns (hnone above)
  have hparent : (fileOf above).parent? = some (Location.path above) := by
    have hnames := isName_of_directory habove
    rw [fileOf, Location.path_div hnames isEntryName_fileName.isName, Path.parent?,
      Location.ancestors_path hnames isEntryName_fileName.isName]
    rfl
  unfold load
  rw [h.absolute_eq]
  simp only [Except.mapError, bind, Except.bind, hfound, hparent]
  rfl

/-- Where none does, the defaults are, and paths start from the directory itself. -/
theorem load_of_free (hfree : ∀ above, ¬ Governs disk.tree place above) :
    load disk start = .ok ⟨default, Location.path place, false⟩ := by
  have hnone : find? disk (Location.path place) = none := by
    have hsearched := find?_spec h.directory
    generalize find? disk (Location.path place) = found at hsearched
    cases hsearched with
    | file hother => exact absurd hother (hfree _)
    | none => rfl
  unfold load
  rw [h.absolute_eq]
  simp only [Except.mapError, bind, Except.bind, hnone]
  rfl

end StartsIn

end LocaleCatalog.Config
