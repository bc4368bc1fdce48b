import Mathlib.Order.Defs.Unbundled
import LocaleCatalog.Proofs.FileTree.Reach

/-!
# Running an action

* `FileAction.run_bind` and its like say how an action runs;
* all changes come down to three. `FileAction.makeDirectory_cases`, `FileAction.writeBytes_cases` and
  `FileAction.removeFile_cases` say all that these can do: a change fails and leaves the workspace as
  it was, or it is aimed at a place where it can be made and the disk does not refuse it;
* `FileAction.Moves` says of an action that it leads from a workspace only to related ones, however
  it ends. It holds of the parts of an action together as it holds of each, so a relation that the
  three changes move along is one that every action of the program moves along
  (`FileAction.Changes`).
-/

namespace LocaleCatalog

/-! ## 1. Running -/

namespace FileAction

variable {ε ε' α β : Type}

/-- What an action gives in a workspace, and the workspace it leaves. -/
def runIn (action : FileAction ε α) (workspace : Workspace) : Except ε α × Workspace :=
  action.run.run workspace

@[simp] theorem run_pure (a : α) (workspace : Workspace) :
    runIn (pure a : FileAction ε α) workspace = (.ok a, workspace) := rfl

@[simp] theorem run_throw (error : ε) (workspace : Workspace) :
    runIn (throw error : FileAction ε α) workspace = (.error error, workspace) := rfl

@[simp] theorem run_get (workspace : Workspace) :
    runIn (get : FileAction ε Workspace) workspace = (.ok workspace, workspace) := rfl

@[simp] theorem run_modifyTree (change : FileTree → FileTree) (workspace : Workspace) :
    runIn (modifyTree change : FileAction ε Unit) workspace =
      (.ok (), ⟨change workspace.tree, workspace.current⟩) := rfl

@[simp] theorem run_outcome (action : FileAction ε α) (workspace : Workspace) :
    runIn (outcome action : FileAction ε' (Except ε α)) workspace =
      (.ok (runIn action workspace).1, (runIn action workspace).2) := rfl

theorem run_bind (action : FileAction ε α) (next : α → FileAction ε β) (workspace : Workspace) :
    runIn (action >>= next) workspace =
      match runIn action workspace with
      | (.ok a, between) => runIn (next a) between
      | (.error error, between) => (.error error, between) := by
  unfold runIn
  simp only [ExceptT.run_bind, StateT.run_bind]
  rcases action.run.run workspace with ⟨result, between⟩
  cases result <;> rfl

theorem run_forM_cons (item : β) (items : List β) (action : β → FileAction ε PUnit)
    (workspace : Workspace) :
    runIn ((item :: items).forM action) workspace =
      match runIn (action item) workspace with
      | (.ok _, between) => runIn (items.forM action) between
      | (.error error, between) => (.error error, between) := by
  have hcons : (item :: items).forM action = (action item >>= fun _ => items.forM action) := rfl
  rw [hcons, run_bind]
  rcases runIn (action item) workspace with ⟨result, between⟩
  cases result <;> rfl

@[simp] theorem run_inspect (question : Workspace → Except ε α) (workspace : Workspace) :
    runIn (inspect question) workspace = (question workspace, workspace) := by
  unfold inspect
  rw [run_bind, run_get]
  show runIn (match question workspace with | _ => _) workspace = _
  cases question workspace <;> rfl

@[simp] theorem run_mapError (f : ε → ε') (action : FileAction ε α) (workspace : Workspace) :
    runIn (mapError f action) workspace =
      ((runIn action workspace).1.mapError f, (runIn action workspace).2) := by
  unfold runIn
  simp only [mapError, ExceptT.run_mk, StateT.run_bind]
  rcases action.run.run workspace with ⟨result, between⟩
  cases result <;> rfl

/-- An error is forgiven where a directory stands already. -/
theorem run_forgive (path : Path) (error : IoError) (workspace : Workspace) :
    runIn (do if (← get).isDirectory path then return else throw error : FileAction IoError Unit)
        workspace =
      if workspace.isDirectory path then (.ok (), workspace) else (.error error, workspace) := by
  rw [run_bind, run_get]
  dsimp only
  split <;> rfl

variable {before after : Workspace}

/-- Two actions in sequence succeed when the second does where the first left off. -/
theorem run_bind_eq_ok {action : FileAction ε α} {next : α → FileAction ε β} {b : β} :
    runIn (action >>= next) before = (.ok b, after) ↔
      ∃ a between, runIn action before = (.ok a, between) ∧
        runIn (next a) between = (.ok b, after) := by
  rw [run_bind]
  rcases runIn action before with ⟨result, between⟩
  cases result <;> simp [and_assoc]

/-- An action that does not fail gives something. -/
theorem exists_of_isOk (action : FileAction ε α) (before : Workspace)
    (h : (runIn action before).1.isOk = true) :
    ∃ a, runIn action before = (.ok a, (runIn action before).2) := by
  rcases hrun : runIn action before with ⟨result, between⟩
  rw [hrun] at h
  cases result with
  | error => cases h
  | ok a => exact ⟨a, rfl⟩

/-- Where a check of the result can be evaluated, there is a result that passes it. -/
theorem exists_of_any (action : FileAction ε α) (before : Workspace) (check : α → Bool)
    (h : (runIn action before).1.toOption.any check = true) :
    ∃ a, runIn action before = (.ok a, (runIn action before).2) ∧ check a = true := by
  rcases hrun : runIn action before with ⟨result, between⟩
  rw [hrun] at h
  cases result with
  | error => cases h
  | ok a => exact ⟨a, rfl, h⟩

theorem run_mapError_eq_ok {f : ε → ε'} {action : FileAction ε α} {a : α} :
    runIn (mapError f action) before = (.ok a, after) ↔ runIn action before = (.ok a, after) := by
  rw [run_mapError]
  rcases runIn action before with ⟨result, between⟩
  cases result <;> simp [Except.mapError]

theorem run_inspect_bind_eq_ok {question : Workspace → Except ε α} {next : α → FileAction ε β}
    {b : β} :
    runIn (inspect question >>= next) before = (.ok b, after) ↔
      ∃ a, question before = .ok a ∧ runIn (next a) before = (.ok b, after) := by
  rw [run_bind, run_inspect]
  cases question before <;> simp

/-! ## 2. The three changes -/

variable {path : Path} {aim : Target} {bytes : ByteArray}

theorem run_makeDirectory (path : Path) (workspace : Workspace) :
    runIn (makeDirectory path) workspace =
      match target path workspace with
      | .error error => (.error error, workspace)
      | .ok aim =>
        if (workspace.tree.find? aim.place).isSome then (.error .alreadyExists, workspace)
        else
          match workspace.tree.refusals aim.place with
          | some reason => (.error (.refused reason), workspace)
          | none => (.ok (), ⟨workspace.tree.insert aim.place .directory, workspace.current⟩) := by
  unfold makeDirectory FileTree.allow
  rw [run_bind, run_inspect]
  cases target path workspace with
  | error error => rfl
  | ok aim =>
    simp only [run_bind, run_get]
    split
    · rfl
    · rw [run_bind, run_inspect]
      cases workspace.tree.refusals aim.place <;> rfl

theorem run_writeBytes (path : Path) (bytes : ByteArray) (workspace : Workspace) :
    runIn (writeBytes path bytes) workspace =
      match target path workspace with
      | .error error => (.error error, workspace)
      | .ok aim =>
        if aim.slash ∨ ¬ aim.named then (.error .isDirectory, workspace)
        else if workspace.tree.find? aim.place = some .directory then
          (.error .isDirectory, workspace)
        else
          match workspace.tree.refusals aim.place with
          | some reason => (.error (.refused reason), workspace)
          | none => (.ok (), ⟨workspace.tree.insert aim.place (.file bytes), workspace.current⟩) := by
  unfold writeBytes FileTree.allow
  rw [run_bind, run_inspect]
  cases target path workspace with
  | error error => rfl
  | ok aim =>
    dsimp only
    split
    · rfl
    · simp only [run_get, run_bind]
      split
      · rfl
      · rw [run_bind, run_inspect]
        cases workspace.tree.refusals aim.place <;> rfl

theorem run_removeFile (path : Path) (workspace : Workspace) :
    runIn (removeFile path) workspace =
      match target path workspace with
      | .error .notFound => (.ok false, workspace)
      | .error error => (.error error, workspace)
      | .ok aim =>
        if ¬ aim.named then (.error .isDirectory, workspace)
        else
          match workspace.tree.find? aim.place with
          | none => (.ok false, workspace)
          | some .directory => (.error .isDirectory, workspace)
          | some (.file _) =>
            if aim.slash then (.error .notDirectory, workspace)
            else
              match workspace.tree.refusals aim.place with
              | some reason => (.error (.refused reason), workspace)
              | none => (.ok true, ⟨workspace.tree.erase aim.place, workspace.current⟩) := by
  unfold removeFile FileTree.allow
  rw [run_bind, run_outcome, run_inspect]
  cases target path workspace with
  | error error => cases error <;> rfl
  | ok aim =>
    dsimp only
    split
    · rfl
    · simp only [run_get, run_bind]
      cases workspace.tree.find? aim.place with
      | none => rfl
      | some entry =>
        cases entry with
        | directory => rfl
        | file =>
          dsimp only
          split
          · rfl
          · rw [run_bind, run_inspect]
            cases workspace.tree.refusals aim.place <;> rfl

/-- A directory is made where nothing stood, or nothing is changed. -/
theorem makeDirectory_cases (path : Path) (before : Workspace) :
    (∃ error, runIn (makeDirectory path) before = (.error error, before)) ∨
    ∃ aim, target path before = .ok aim ∧ before.tree.find? aim.place = none ∧
      before.tree.refusals aim.place = none ∧ runIn (makeDirectory path) before =
        (.ok (), ⟨before.tree.insert aim.place .directory, before.current⟩) := by
  rw [run_makeDirectory]
  cases htarget : target path before with
  | error error => exact .inl ⟨error, rfl⟩
  | ok aim =>
    dsimp only
    split
    · exact .inl ⟨_, rfl⟩
    · rename_i hfree
      cases hrefusal : before.tree.refusals aim.place with
      | some reason => exact .inl ⟨_, rfl⟩
      | none => exact .inr ⟨aim, rfl, Option.not_isSome_iff_eq_none.1 hfree, hrefusal, rfl⟩

/-- A file is written where no directory stands, or nothing is changed. -/
theorem writeBytes_cases (path : Path) (bytes : ByteArray) (before : Workspace) :
    (∃ error, runIn (writeBytes path bytes) before = (.error error, before)) ∨
    ∃ place, target path before = .ok ⟨place, true, false⟩ ∧
      before.tree.find? place ≠ some .directory ∧ before.tree.refusals place = none ∧
      runIn (writeBytes path bytes) before =
        (.ok (), ⟨before.tree.insert place (.file bytes), before.current⟩) := by
  rw [run_writeBytes]
  cases htarget : target path before with
  | error error => exact .inl ⟨error, rfl⟩
  | ok aim =>
    obtain ⟨place, named, slash⟩ := aim
    dsimp only
    split
    · exact .inl ⟨_, rfl⟩
    · rename_i hform
      rw [not_or, not_not] at hform
      split
      · exact .inl ⟨_, rfl⟩
      · rename_i hfree
        cases hrefusal : before.tree.refusals place with
        | some reason => exact .inl ⟨_, rfl⟩
        | none =>
          obtain rfl : slash = false := Bool.eq_false_iff.2 hform.1
          obtain rfl : named = true := hform.2
          exact .inr ⟨place, rfl, hfree, hrefusal, rfl⟩

/-- A file is taken away, or there is none, or nothing is changed. -/
theorem removeFile_cases (path : Path) (before : Workspace) :
    (∃ error, runIn (removeFile path) before = (.error error, before)) ∨
    (before.entryAt path = .error .notFound ∧
      runIn (removeFile path) before = (.ok false, before)) ∨
    ∃ place bytes, target path before = .ok ⟨place, true, false⟩ ∧
      before.tree.find? place = some (.file bytes) ∧ before.tree.refusals place = none ∧
      runIn (removeFile path) before =
        (.ok true, ⟨before.tree.erase place, before.current⟩) := by
  rw [run_removeFile]
  cases htarget : target path before with
  | error error =>
    by_cases hmissing : error = .notFound
    · subst hmissing
      refine .inr (.inl ⟨?_, rfl⟩)
      unfold Workspace.entryAt
      rw [locate_of_target_error htarget]
      rfl
    · refine .inl ⟨error, ?_⟩
      cases error <;> first | rfl | exact absurd rfl hmissing
  | ok aim =>
    obtain ⟨slashes, -, hslash, hlocate⟩ := locate_of_target htarget
    obtain ⟨place, named, slash⟩ := aim
    dsimp only
    split
    · exact .inl ⟨_, rfl⟩
    · rename_i hname
      cases hentry : before.tree.find? place with
      | none => exact .inr (.inl ⟨Workspace.entryAt_eq_notFound hlocate hentry, rfl⟩)
      | some entry =>
        cases entry with
        | directory => exact .inl ⟨_, rfl⟩
        | file bytes =>
          dsimp only
          split
          · exact .inl ⟨_, rfl⟩
          · rename_i hform
            cases hrefusal : before.tree.refusals place with
            | some reason => exact .inl ⟨_, rfl⟩
            | none =>
              obtain rfl : slash = false := Bool.eq_false_iff.2 hform
              obtain rfl : named = true := not_not.1 hname
              exact .inr (.inr ⟨place, bytes, rfl, hentry, hrefusal, rfl⟩)

/-! ## 3. What an action moves along -/

/-- However it ends, the action leads from a workspace only to related ones. -/
def Moves (related : Workspace → Workspace → Prop) (action : FileAction ε α) : Prop :=
  ∀ before, related before (runIn action before).2

section Moves

variable {related : Workspace → Workspace → Prop}

/-- Where one run of the action has led. -/
theorem Moves.of_run {action : FileAction ε α} {result : Except ε α} (h : Moves related action)
    (hrun : runIn action before = (result, after)) : related before after := by
  have hafter := h before
  rw [hrun] at hafter
  exact hafter

theorem Moves.mapError {action : FileAction ε α} (h : Moves related action) (f : ε → ε') :
    Moves related (mapError f action) := by
  intro before
  rw [run_mapError]
  exact h before

theorem Moves.outcome {action : FileAction ε α} (h : Moves related action) :
    Moves related (outcome action : FileAction ε' (Except ε α)) := by
  intro before
  rw [run_outcome]
  exact h before

variable [IsPreorder Workspace related]

theorem moves_pure (a : α) : Moves related (pure a : FileAction ε α) :=
  fun before => refl_of related before

theorem moves_throw (error : ε) : Moves related (throw error : FileAction ε α) :=
  fun before => refl_of related before

theorem moves_inspect (question : Workspace → Except ε α) : Moves related (inspect question) := by
  intro before
  rw [run_inspect]
  exact refl_of related before

theorem Moves.bind {action : FileAction ε α} {next : α → FileAction ε β}
    (h : Moves related action) (hnext : ∀ a, Moves related (next a)) :
    Moves related (action >>= next) := by
  intro before
  have hfirst := h before
  rw [run_bind]
  rcases hrun : runIn action before with ⟨result, between⟩
  rw [hrun] at hfirst
  cases result with
  | error error => exact hfirst
  | ok a => exact trans_of related hfirst (hnext a between)

theorem Moves.forM {items : List β} {action : β → FileAction ε PUnit}
    (h : ∀ item ∈ items, Moves related (action item)) : Moves related (items.forM action) := by
  induction items with
  | nil => exact moves_pure _
  | cons item items ih =>
    exact (h item List.mem_cons_self).bind fun _ =>
      ih fun other hother => h other (List.mem_cons_of_mem _ hother)

/-- Making directories moves along what making each of them moves along. -/
theorem moves_makeDirectoriesFrom {paths : List Path}
    (h : ∀ path ∈ paths, path.text ≠ "" → Moves related (makeDirectory path)) :
    Moves related (makeDirectoriesFrom paths) := by
  induction paths with
  | nil => exact moves_pure ()
  | cons path ancestors ih =>
    unfold makeDirectoriesFrom
    by_cases hempty : path.text = ""
    · rw [if_pos hempty]
      exact moves_pure ()
    rw [if_neg hempty]
    have hmake : Moves related (makeDirectory path) := h path List.mem_cons_self hempty
    have hmore := ih fun other hother => h other (List.mem_cons_of_mem _ hother)
    have hforgive (error : IoError) : Moves related (do
        if (← get).isDirectory path then return else throw error : FileAction IoError Unit) := by
      intro before
      rw [run_forgive]
      split <;> exact refl_of related before
    refine hmake.outcome.bind fun result => ?_
    split
    · exact moves_pure ()
    · refine hmore.bind fun _ => hmake.outcome.bind fun result => ?_
      split
      · exact moves_pure ()
      · exact hforgive _
    · exact hforgive _

end Moves

/-- A relation that the three changes move along, at whatever path. -/
class Changes (related : Workspace → Workspace → Prop) : Prop extends
    IsPreorder Workspace related where
  makeDirectory : ∀ path, Moves related (makeDirectory path)
  writeBytes : ∀ path bytes, Moves related (writeBytes path bytes)
  removeFile : ∀ path, Moves related (removeFile path)

end FileAction

end LocaleCatalog
