import LocaleCatalog.Proofs.Catalog.Contents
import LocaleCatalog.Proofs.FileTree.Disk

/-!
# Files that can be written

Whether a file can be written does not depend on its being there. It depends on the path, which must
be one that a file can have, on what stands on the way to it, and on the disk, which may refuse it:

* `Workspace.Open` says that nothing is in the way;
* `exists_run_writeFile_of_open` and `Workspace.Open.of_run` say that this is what it takes;
* `Workspace.Open.of_changed`: it stays so while files are written elsewhere.
-/

namespace LocaleCatalog

open FileAction (runIn)
open Workspace (Changed Heeded NoStricter)

namespace Workspace

variable {workspace before after other : Workspace} {path : Path} {bytes : ByteArray}

/-- Nothing keeps a file from being written at the path: a file can have such a path, only
    directories stand on the way to it or can be made there, none stands at its place, and the disk
    accepts the file. -/
structure Open (workspace : Workspace) (path : Path) : Prop where
  nameable : ∃ (other : Workspace) (bytes : ByteArray),
    other.current = workspace.current ∧ other.readBytes path = .ok bytes
  clear : workspace.tree.Clear (workspace.startOf path) (path.placeFrom workspace.current)
  free : workspace.tree.find? (path.placeFrom workspace.current) ≠ some .directory
  accepted : workspace.Accepts path

/-! ## 1. Writing -/

/-- A path that a file can have ends in a name. -/
theorem exists_target_of_readBytes (hplain : path.IsPlain) (hread : other.readBytes path = .ok bytes) :
    FileAction.target path other = .ok ⟨path.placeFrom other.current, true, false⟩ ∧
      path.steps ≠ [] := by
  obtain ⟨place, htarget, -⟩ := FileAction.target_of_readBytes hplain hread
  obtain ⟨before, last, parent, hsteps, -⟩ := FileAction.target_eq_of_named htarget rfl
  refine ⟨?_, by simp [hsteps]⟩
  rw [htarget, ← FileAction.target_eq_place htarget hplain]

/-- The way to a file that can be read is made of directories. -/
theorem find?_above_of_readBytes (hplain : path.IsPlain) (hread : workspace.readBytes path = .ok bytes)
    {on : Location} (hbehind : workspace.startOf path <+: on)
    (hon : on <+: path.placeFrom workspace.current) (hne : on ≠ path.placeFrom workspace.current) :
    workspace.tree.find? on = some .directory :=
  FileAction.find?_above_target (exists_target_of_readBytes hplain hread).1 rfl hplain hbehind hon hne

theorem startOf_of_mem_ancestors {above : Path} (h : above ∈ path.ancestors) :
    workspace.startOf above = workspace.startOf path := by
  unfold startOf
  rw [(Path.steps_of_mem_ancestors h).1]

/-- The directories that a file is to lie in can be made. -/
theorem Open.exists_run_makeParents (h : before.Open path) (hplain : path.IsPlain) :
    ∃ after, runIn (makeParents path) before = (.ok (), after) ∧
      ∀ on, before.startOf path <+: on → on <+: path.placeFrom before.current →
        on ≠ path.placeFrom before.current → after.tree.find? on = some .directory := by
  obtain ⟨other, bytes, hcurrent, hread⟩ := h.nameable
  have hsome := (exists_target_of_readBytes hplain hread).2
  have hladder := path.ladder_ancestors
  unfold makeParents Path.parent?
  cases hancestors : path.ancestors with
  | nil =>
    rw [hancestors] at hladder
    cases hladder with
    | bottom hnone => exact absurd hnone hsome
  | cons parent more =>
    have hparent : parent ∈ path.ancestors := hancestors ▸ List.mem_cons_self
    have hstart : before.startOf parent = before.startOf path := startOf_of_mem_ancestors hparent
    rw [hancestors] at hladder
    cases hladder with
    | rung hsteps hmore =>
      show ∃ after, runIn (if parent.text = "" then pure () else _) before = _ ∧ _
      by_cases hempty : parent.text = ""
      · rw [if_pos hempty]
        refine ⟨before, rfl, fun on hbehind hon hne => ?_⟩
        -- the file lies in the directory where its path starts
        obtain rfl : parent = ⟨""⟩ := by cases parent; cases hempty; rfl
        have hon' : on <+: before.startOf ⟨""⟩ ++ (⟨""⟩ : Path).steps :=
          prefix_above hstart hsteps hsome hon hne
        rw [show (⟨""⟩ : Path).steps = [] by decide, List.append_nil, hstart] at hon'
        rw [hon'.eq_of_length_le hbehind.length_le]
        exact h.clear.directory
      · obtain ⟨place, hlocate, -⟩ := readBytes_eq_ok.1 hread
        have hdir := isDirectory_of_mem_ancestors hlocate hparent hempty
        obtain ⟨place', hlocate', -⟩ := isDirectory_iff.1 hdir
        have htowards : ∀ above ∈ parent :: parent.ancestors, above.text ≠ "" →
            before.Towards (before.startOf path) (path.placeFrom before.current) above := by
          intro above habove hne
          obtain ⟨hon, hlower⟩ := Path.placeFrom_of_mem_parents hparent hempty habove before.current
          refine ⟨Path.isPlain_of_mem_parents hparent habove hplain, ?_, hon, hlower, other,
            hcurrent, ?_⟩
          · rcases List.mem_cons.1 habove with rfl | habove
            · exact Path.endsInName_of_mem_ancestors hparent
            · exact Path.endsInName_of_mem_ancestors habove
          · rcases List.mem_cons.1 habove with rfl | habove
            · exact hdir
            · exact isDirectory_of_mem_ancestors hlocate' habove hne
        have hstarts : ∀ above ∈ parent :: parent.ancestors,
            before.startOf above = before.startOf path := by
          intro above habove
          rcases List.mem_cons.1 habove with rfl | habove
          · exact hstart
          · rw [startOf_of_mem_ancestors habove, hstart]
        obtain ⟨after, hrun, hpaved⟩ := FileAction.exists_run_makeDirectoriesFrom
          parent.ladder_ancestors hstarts htowards h.clear
        refine ⟨after, ?_, fun on hbehind hon hne => ?_⟩
        · rw [if_neg hempty]
          exact FileAction.run_mapError_eq_ok.2 hrun
        · exact hpaved parent rfl on hbehind (prefix_above hstart hsteps hsome hon hne)

end Workspace

variable {before after : Workspace} {path : Path} {text : String} {written reached : Set Location}

/-- Where nothing is in the way, a file can be written. -/
theorem exists_run_writeFile_of_open (hplain : path.IsPlain) (h : before.Open path) (text : String) :
    ∃ after, runIn (writeFile path text) before = (.ok (), after) := by
  obtain ⟨other, bytes, hcurrent, hread⟩ := h.nameable
  have htarget := (Workspace.exists_target_of_readBytes hplain hread).1
  rw [hcurrent] at htarget
  obtain ⟨between, hparents, hpaved⟩ := h.exists_run_makeParents hplain
  have hchanged : Changed ∅ {path.placeFrom before.current} before between :=
    (within_makeParents hplain ∅).changed hparents
  have hstart : between.startOf path = before.startOf path := by
    unfold Workspace.startOf
    rw [hchanged.current]
  have hready : FileAction.target path between =
      .ok ⟨path.placeFrom before.current, true, false⟩ := by
    refine FileAction.target_of_paved htarget rfl hplain
      (hchanged.current.trans hcurrent.symm) fun on hbehind hon hne => ?_
    exact hpaved on (hstart ▸ hbehind) hon hne
  have hfree : between.tree.find? (path.placeFrom before.current) ≠ some .directory := by
    rw [hchanged.find?_eq (Set.notMem_empty _) fun goal hgoal _ => (Set.mem_singleton_iff.1 hgoal).symm]
    exact h.free
  have hheeded : Heeded before between := (moves_makeParents path).of_run hparents
  have hallowed : between.tree.refusals (path.placeFrom before.current) = none := by
    rw [hheeded.refusals]
    exact (Workspace.accepts_iff_of_isPlain hplain).1 h.accepted
  unfold writeFile FileAction.writeText
  rw [FileAction.run_bind, hparents]
  dsimp only
  rw [FileAction.run_mapError, FileAction.run_writeBytes, hready]
  dsimp only
  rw [if_neg (by simp), if_neg hfree, hallowed]
  exact ⟨_, rfl⟩

namespace Workspace.Open

/-- What a write went through at was open. -/
theorem of_run (hplain : path.IsPlain)
    (hstart : before.tree.find? (before.startOf path) = some .directory)
    (h : runIn (writeFile path text) before = (.ok (), after)) : before.Open path := by
  have hread := readBytes_of_writeFile h
  have hchanged := (within_writeFile hplain text).changed h
  have hstart' : after.startOf path = before.startOf path := by
    unfold Workspace.startOf
    rw [hchanged.current]
  have hheeded : Heeded before after := (moves_writeFile path text).of_run h
  refine ⟨⟨after, _, hchanged.current, hread⟩, ⟨hstart, fun on hbehind hon hne => ?_⟩, ?_,
    accepts_of_writeFile h⟩
  · have hdir := find?_above_of_readBytes hplain hread (hstart' ▸ hbehind)
      (hchanged.current ▸ hon) (hchanged.current ▸ hne)
    rcases hchanged.elsewhere on hne with hsame | ⟨hnone, -, -⟩
    · exact .inl (hsame ▸ hdir)
    · -- the directory was made, so the disk did not refuse it
      exact .inr ⟨hnone, hheeded.refusals_of_ne (by rw [hdir, hnone]; nofun)⟩
  · intro hdir
    obtain ⟨_, between, hparents, hwrite⟩ := FileAction.run_bind_eq_ok.1 h
    have hmade : Changed ∅ {path.placeFrom before.current} before between :=
      (within_makeParents hplain ∅).changed hparents
    rcases FileAction.writeBytes_cases path text.toUTF8 between with
      ⟨error, hrun⟩ | ⟨place, haim, hfree, -, -⟩
    · have hwritten := FileAction.run_mapError_eq_ok.1 hwrite
      unfold FileAction.writeText at hwritten
      rw [hwritten] at hrun
      cases hrun
    · have hplace : place = path.placeFrom before.current :=
        hmade.current ▸ FileAction.target_eq_place haim hplain
      exact hfree (hplace ▸ hmade.find?_of_find? (Set.notMem_empty _) hdir)

/-- A file that can be read can be written, if the disk accepts that. -/
theorem of_readBytes {bytes : ByteArray} (hplain : path.IsPlain)
    (hread : before.readBytes path = .ok bytes) (haccepts : before.Accepts path) :
    before.Open path := by
  obtain ⟨after, hrun⟩ := exists_run_writeFile hplain hread haccepts ""
  refine of_run hplain ?_ hrun
  obtain ⟨htarget, hsome⟩ := exists_target_of_readBytes hplain hread
  refine find?_above_of_readBytes hplain hread (List.prefix_refl _) (List.prefix_append _ _) ?_
  exact fun heq => hsome (List.self_eq_append_right.1 heq)

/-- A file can still be written after other files were, unless one of them stands on the way to it
    or was made below it, or the disk refuses more than before. -/
theorem of_changed (h : before.Open path) (hchanged : Changed written reached before after)
    (hnoStricter : NoStricter before after)
    (hwritten : ∀ place ∈ written, ¬ place <+: path.placeFrom before.current)
    (hreached : ∀ goal ∈ reached, path.placeFrom before.current <+: goal →
      path.placeFrom before.current = goal) : after.Open path := by
  have hcurrent := hchanged.current
  have hstart : after.startOf path = before.startOf path := by
    unfold Workspace.startOf
    rw [hcurrent]
  have hbehind : before.startOf path <+: path.placeFrom before.current := List.prefix_append _ _
  obtain ⟨other, bytes, hother, hread⟩ := h.nameable
  refine ⟨⟨other, bytes, hother.trans hcurrent.symm, hread⟩, ?_, ?_,
    hnoStricter.accepts h.accepted⟩ <;> rw [hcurrent]
  · rw [hstart]
    refine ⟨hchanged.find?_of_find? (fun hmem => hwritten _ hmem hbehind) h.clear.directory, ?_⟩
    exact fun on hbehind' hon hne => (h.clear.way on hbehind' hon hne).of_changed hchanged
      (fun hmem => hwritten on hmem hon) hnoStricter
  · rw [hchanged.find?_eq (fun hmem => hwritten _ hmem (List.prefix_refl _)) hreached]
    exact h.free

end Workspace.Open

/-- The example, as it stands on a disk. -/
def Disk.sample : Disk where
  toWorkspace := Workspace.sample
  wellFormed := by decide +kernel

end LocaleCatalog
