import LocaleCatalog.Proofs.FileTree.Clear
import LocaleCatalog.Proofs.FileTree.Graft

/-!
# What does not depend on the current directory

Only relative paths start from the current directory. Two workspaces with the same tree may differ
in it, and still

* at an absolute path the same is found: each question has a lemma, from
  `Workspace.locate_anchored` on;
* an action that is aimed at absolute paths alone does the same. `FileAction.Anchored` says it of an
  action, and it holds of the parts of an action together as it holds of each.
-/

namespace LocaleCatalog

/-! ## 1. Absolute paths -/

namespace Path

variable {base path above : Path}

/-- Whatever is seen from an absolute path is absolute. -/
theorem isAbsolute_resolve (habs : base.isAbsolute = true) (path : Path) :
    (base.resolve path).isAbsolute = true := by
  unfold resolve
  split
  · assumption
  · exact isAbsolute_join habs _

theorem isAbsolute_foldl (habs : path.isAbsolute = true) (names : List String) :
    (names.foldl (fun spelled name => spelled / name) path).isAbsolute = true := by
  induction names generalizing path with
  | nil => exact habs
  | cons name names ih => exact ih (isAbsolute_div habs name)

theorem isAbsolute_of_mem_ancestors (habs : path.isAbsolute = true) (h : above ∈ path.ancestors) :
    above.isAbsolute = true :=
  (steps_of_mem_ancestors h).1.trans habs

end Path

/-! ## 2. Questions -/

namespace Workspace

variable {first second : Workspace} {path : Path} (htree : first.tree = second.tree)
  (habs : path.isAbsolute = true)

omit htree in
include habs in
theorem startOf_of_isAbsolute (workspace : Workspace) : workspace.startOf path = [] :=
  if_pos habs

include htree habs

theorem locate_anchored : first.locate path = second.locate path := by
  unfold locate
  rw [startOf_of_isAbsolute habs, startOf_of_isAbsolute habs, htree]

theorem entryAt_anchored : first.entryAt path = second.entryAt path := by
  unfold entryAt
  rw [locate_anchored htree habs, htree]

theorem contains_anchored : first.contains path = second.contains path := by
  unfold contains
  rw [entryAt_anchored htree habs]

theorem isDirectory_anchored : first.isDirectory path = second.isDirectory path := by
  unfold isDirectory
  rw [entryAt_anchored htree habs]

theorem readBytes_anchored : first.readBytes path = second.readBytes path := by
  unfold readBytes
  rw [entryAt_anchored htree habs]

theorem readText_anchored : first.readText path = second.readText path := by
  unfold readText
  rw [readBytes_anchored htree habs]

theorem namesIn_anchored : first.namesIn path = second.namesIn path := by
  unfold namesIn
  rw [locate_anchored htree habs, htree]

theorem walk_anchored : first.walk path = second.walk path := by
  unfold walk
  rw [locate_anchored htree habs, htree]

theorem target_anchored : FileAction.target path first = FileAction.target path second := by
  unfold FileAction.target
  rw [startOf_of_isAbsolute habs, startOf_of_isAbsolute habs, htree]

end Workspace

/-! ## 3. Actions -/

/-- Two runs have given the same and left the same tree. -/
structure SameEffect {α : Type} (first second : α × Workspace) : Prop where
  given : first.1 = second.1
  tree : first.2.tree = second.2.tree

namespace FileAction

variable {ε ε' α β : Type} {path : Path}

/-- Where the same tree is, the action has the same effect. -/
def Anchored (action : FileAction ε α) : Prop :=
  ∀ first second : Workspace, first.tree = second.tree →
    SameEffect (runIn action first) (runIn action second)

theorem anchored_pure (a : α) : Anchored (pure a : FileAction ε α) :=
  fun _ _ htree => ⟨rfl, htree⟩

theorem anchored_throw (error : ε) : Anchored (throw error : FileAction ε α) :=
  fun _ _ htree => ⟨rfl, htree⟩

theorem anchored_inspect {question : Workspace → Except ε α}
    (h : ∀ first second : Workspace, first.tree = second.tree → question first = question second) :
    Anchored (inspect question) := by
  intro first second htree
  rw [run_inspect, run_inspect, h first second htree]
  exact ⟨rfl, htree⟩

theorem Anchored.bind {action : FileAction ε α} {next : α → FileAction ε β} (h : Anchored action)
    (hnext : ∀ a, Anchored (next a)) : Anchored (action >>= next) := by
  intro first second htree
  have heffect := h first second htree
  rw [run_bind, run_bind]
  rcases hfirst : runIn action first with ⟨result, between⟩
  rcases hsecond : runIn action second with ⟨result', between'⟩
  rw [hfirst, hsecond] at heffect
  obtain rfl : result = result' := heffect.given
  cases result with
  | error error => exact ⟨rfl, heffect.tree⟩
  | ok a => exact hnext a between between' heffect.tree

/-- Two questions with the same answer, and behind them what has the same effect from there on. -/
theorem sameEffect_of_answer {question other : Workspace → Except ε α} {next : α → FileAction ε β}
    {first second : Workspace} (htree : first.tree = second.tree)
    (hanswer : question first = other second)
    (hnext : ∀ a, question first = .ok a → Anchored (next a)) :
    SameEffect (runIn (inspect question >>= next) first)
      (runIn (inspect other >>= next) second) := by
  rw [run_bind, run_bind, run_inspect, run_inspect, ← hanswer]
  cases hfirst : question first with
  | error error => exact ⟨rfl, htree⟩
  | ok a => exact hnext a hfirst first second htree

theorem Anchored.mapError {action : FileAction ε α} (h : Anchored action) (f : ε → ε') :
    Anchored (mapError f action) := by
  intro first second htree
  obtain ⟨hgiven, hleft⟩ := h first second htree
  rw [run_mapError, run_mapError, hgiven]
  exact ⟨rfl, hleft⟩

theorem Anchored.outcome {action : FileAction ε α} (h : Anchored action) :
    Anchored (outcome action : FileAction ε' (Except ε α)) := by
  intro first second htree
  obtain ⟨hgiven, hleft⟩ := h first second htree
  rw [run_outcome, run_outcome, hgiven]
  exact ⟨rfl, hleft⟩

theorem Anchored.forM {items : List β} {action : β → FileAction ε PUnit}
    (h : ∀ item ∈ items, Anchored (action item)) : Anchored (items.forM action) := by
  induction items with
  | nil => exact anchored_pure _
  | cons item items ih =>
    exact (h item List.mem_cons_self).bind fun _ =>
      ih fun other hother => h other (List.mem_cons_of_mem _ hother)

/-! ## 4. Changes at absolute paths -/

theorem anchored_makeDirectory (habs : path.isAbsolute = true) : Anchored (makeDirectory path) := by
  intro first second htree
  rw [run_makeDirectory, run_makeDirectory, Workspace.target_anchored htree habs, htree]
  cases target path second with
  | error error => exact ⟨rfl, htree⟩
  | ok aim =>
    dsimp only
    split
    · exact ⟨rfl, htree⟩
    · split <;> [exact ⟨rfl, htree⟩; exact ⟨rfl, rfl⟩]

theorem anchored_makeDirectoriesFrom {paths : List Path}
    (h : ∀ path ∈ paths, path.isAbsolute = true) : Anchored (makeDirectoriesFrom paths) := by
  induction paths with
  | nil => exact anchored_pure ()
  | cons path ancestors ih =>
    obtain ⟨habs, hancestors⟩ := List.forall_mem_cons.1 h
    have hmake := anchored_makeDirectory habs
    have hforgive (error : IoError) : Anchored (do
        if (← get).isDirectory path then return else throw error : FileAction IoError Unit) := by
      intro first second htree
      rw [run_forgive, run_forgive, Workspace.isDirectory_anchored htree habs]
      split <;> exact ⟨rfl, htree⟩
    unfold makeDirectoriesFrom
    rw [if_neg (Path.ne_of_isAbsolute habs)]
    refine hmake.outcome.bind fun made => ?_
    split
    · exact anchored_pure ()
    · refine (ih hancestors).bind fun _ => hmake.outcome.bind fun made => ?_
      split
      · exact anchored_pure ()
      · exact hforgive _
    · exact hforgive _

theorem anchored_makeDirectories (habs : path.isAbsolute = true) :
    Anchored (makeDirectories path) :=
  anchored_makeDirectoriesFrom <| List.forall_mem_cons.2
    ⟨habs, fun _ habove => Path.isAbsolute_of_mem_ancestors habs habove⟩

theorem anchored_writeBytes (habs : path.isAbsolute = true) (bytes : ByteArray) :
    Anchored (writeBytes path bytes) := by
  intro first second htree
  rw [run_writeBytes, run_writeBytes, Workspace.target_anchored htree habs, htree]
  cases target path second with
  | error error => exact ⟨rfl, htree⟩
  | ok aim =>
    dsimp only
    split
    · exact ⟨rfl, htree⟩
    · split
      · exact ⟨rfl, htree⟩
      · split <;> [exact ⟨rfl, htree⟩; exact ⟨rfl, rfl⟩]

theorem anchored_removeFile (habs : path.isAbsolute = true) : Anchored (removeFile path) := by
  intro first second htree
  rw [run_removeFile, run_removeFile, Workspace.target_anchored htree habs, htree]
  cases target path second with
  | error error => cases error <;> exact ⟨rfl, htree⟩
  | ok aim =>
    dsimp only
    split
    · exact ⟨rfl, htree⟩
    · split
      · exact ⟨rfl, htree⟩
      · exact ⟨rfl, htree⟩
      · split
        · exact ⟨rfl, htree⟩
        · split <;> [exact ⟨rfl, htree⟩; exact ⟨rfl, rfl⟩]

end FileAction

end LocaleCatalog
