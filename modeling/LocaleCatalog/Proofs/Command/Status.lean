import Mathlib.Algebra.Ring.Nat
import LocaleCatalog.Proofs.Command.Gate
import LocaleCatalog.Proofs.History.Basic
import LocaleCatalog.Proofs.Merge.Gate

/-!
# What a status says about the merge

The command `status` counts the blank entries of a batch, and calls the batch ready when there are
none. It looks at nothing else, while `merge` judges the batch against the locales and the canonical
store.

* `Command.statusAdvice_eq_iff`: a batch is called ready just if no blank entry was counted;
* `Command.Foretold`: a blank entry is always a reason to refuse the merge. Without one the merge is
  refused just if the batch is not addressed to the project (`Batch.Addressed`): a locale or a key is
  strange to it, or there is no entry at all;
* `Command.foretold_of_readable`: this holds wherever the files can be read;
* `Command.ready_and_refused`: a batch that is called ready, and refused.
-/

namespace LocaleCatalog

open FileAction (runIn)

/-! ## 1. Batches for a project -/

/-- The batch has entries, and each of them is for a locale that the project translates and for a
    key of its canonical store. Nothing is said about texts. -/
structure Batch.Addressed (batch : Batch) (locales : LocaleSet) (canonical : Messages) : Prop where
  locale : ∀ locale ∈ batch, locale ∈ locales ∧ locale ≠ locales.canonical
  key : ∀ (locale : String) (entries : Messages), batch[locale]? = some entries →
    ∀ key ∈ entries, key ∈ canonical
  entry : ∃ (locale : String) (entries : Messages), batch[locale]? = some entries ∧ entries ≠ ∅

/-- Every entry of the batch has a text. -/
def Batch.Filled (batch : Batch) : Prop :=
  ∀ (locale : String) (entries : Messages), batch[locale]? = some entries →
    ∀ key text : String, entries[key]? = some text → ¬ Text.Blank text

namespace Command

/-- No blank entry is counted just if every entry has a text. -/
theorem blanks_eq_zero_iff {batch : Batch} :
    ((batchStatus batch).map (·.blank)).sum = 0 ↔ batch.Filled := by
  have hlocale (locale : String) (entries : Messages) :
      entries.blankKeys.length = 0 ↔
        ∀ key text : String, entries[key]? = some text → ¬ Text.Blank text := by
    rw [List.length_eq_zero_iff, List.eq_nil_iff_forall_not_mem]
    constructor
    · intro h key text hentry hblank
      exact h key (Messages.mem_blankKeys.2 ⟨text, hentry, hblank⟩)
    · intro h key hkey
      obtain ⟨text, hentry, hblank⟩ := Messages.mem_blankKeys.1 hkey
      exact h key text hentry hblank
  rw [List.sum_eq_zero_iff_forall_eq_nat, List.forall_mem_map, batchStatus, List.forall_mem_map]
  constructor
  · intro h locale entries hfound
    exact (hlocale locale entries).1
      (h (locale, entries) (Std.ExtTreeMap.mem_toList_iff_getElem?_eq_some.2 hfound))
  · intro h found hfound
    exact (hlocale found.1 found.2).2
      (h found.1 found.2 (Std.ExtTreeMap.mem_toList_iff_getElem?_eq_some.1 hfound))

/-- A batch that is addressed to the project, with a text for every entry, has no problems, and only
    such a batch or one without entries. -/
theorem problems_eq_nil_iff_of_filled {batch : Batch} {locales : LocaleSet} {canonical : Messages}
    (h : batch.Filled) :
    batch.problems locales canonical = [] ↔
      (∀ locale ∈ batch, locale ∈ locales ∧ locale ≠ locales.canonical) ∧
        ∀ (locale : String) (entries : Messages), batch[locale]? = some entries →
          ∀ key ∈ entries, key ∈ canonical := by
  rw [Batch.problems_eq_nil_iff]
  constructor
  · intro hnone
    refine ⟨fun locale hlocale => ?_, fun locale entries hfound key hkey => ?_⟩
    · obtain ⟨entries, hfound⟩ := mem_iff_exists_getElem?.1 hlocale
      obtain ⟨hknown, hother, -⟩ := hnone locale entries hfound
      exact ⟨hknown, hother⟩
    · obtain ⟨text, hentry⟩ := mem_iff_exists_getElem?.1 hkey
      exact Std.ExtTreeMap.contains_iff_mem.1 ((hnone locale entries hfound).2.2 key text hentry).1
  · intro ⟨hlocales, hkeys⟩ locale entries hfound
    obtain ⟨hknown, hother⟩ := hlocales locale (mem_iff_exists_getElem?.2 ⟨entries, hfound⟩)
    refine ⟨hknown, hother, fun key text hentry => ⟨?_, h locale entries hfound key text hentry⟩⟩
    exact Std.ExtTreeMap.contains_iff_mem.2
      (hkeys locale entries hfound key (mem_iff_exists_getElem?.2 ⟨text, hentry⟩))

/-! ## 2. What is printed -/

/-- The advice at the end of a status calls the batch ready just if no entry is blank. -/
theorem statusAdvice_eq_iff {colours : Bool} {blank : Nat} :
    statusAdvice colours blank = statusAdvice colours 0 ↔ blank = 0 := by
  constructor
  · intro h
    by_contra hsome
    -- the one advice ends in a noun, the other in a command
    have hnoun : (statusAdvice colours blank).toList.getLast? = some 'n' := by
      have hend : " without a translation".toList.getLast? = some 'n' := by decide +kernel
      unfold statusAdvice
      rw [if_neg hsome]
      show (countedEntries blank ++ " without a translation").toList.getLast? = _
      rw [String.toList_append, List.getLast?_append, hend]
      rfl
    have hcommand : (statusAdvice colours 0).toList.getLast? ≠ some 'n' := by
      cases colours <;> decide +kernel
    exact hcommand (h ▸ hnoun)
  · intro h
    rw [h]

/-- The status that was printed calls the batch ready. -/
def SaysReady (colours : Bool) (outcome : Outcome) : Prop :=
  (outcome.report colours).output.getLast? = some (statusAdvice colours 0)

instance (colours : Bool) (outcome : Outcome) : Decidable (SaysReady colours outcome) :=
  inferInstanceAs (Decidable (_ = _))

/-! ## 3. What follows for the merge -/

/-- The settings are valid, there is a batch, and the stores that a merge of it reads can be read. -/
structure Readable (options : Options) (before : Workspace) (project : Project) (batch : Batch)
    (canonical : Messages) : Prop where
  opened : Opened options before project
  loaded : project.catalog.loadBatch before = .ok (some batch)
  known : project.catalog.loadStore project.catalog.locales.canonical before = .ok canonical
  stores : ∀ locale ∈ batch, ∃ store, project.catalog.loadStore locale before = .ok store

/-- The merge is refused for what its batch holds, or fails to hold. -/
def MergeRefused (options : Options) (before : Workspace) : Prop :=
  (∃ problems path, (runIn (mergeProject options) before).1 = .ok (.rejected problems path)) ∨
    (runIn (mergeProject options) before).1 = .error (.merge .nothingMerged)

/-- What the status of a batch says, and what comes of a merge right after it. -/
structure Foretold (colours : Bool) (options : Options) (before : Workspace) (project : Project)
    (batch : Batch) (canonical : Messages) : Prop where
  /-- The status counts the entries of the batch. -/
  status : runIn (projectStatus options) before =
    (.ok (.status (some (batchStatus batch)) project.catalog.batch), before)
  /-- It calls the batch ready just if no entry is blank. -/
  ready : SaysReady colours (.status (some (batchStatus batch)) project.catalog.batch) ↔
    ((batchStatus batch).map (·.blank)).sum = 0
  /-- A blank entry is a reason to refuse the merge, which changes nothing then. -/
  blank : 0 < ((batchStatus batch).map (·.blank)).sum → ∃ problems, problems ≠ [] ∧
    runIn (mergeProject options) before =
      (.ok (.rejected problems project.catalog.batch), before)
  /-- A batch that was called ready is not refused, just if it is addressed to the project. -/
  addressed : SaysReady colours (.status (some (batchStatus batch)) project.catalog.batch) →
    (¬ MergeRefused options before ↔ batch.Addressed project.catalog.locales canonical)

variable {options : Options} {before : Workspace} {project : Project} {batch : Batch}
  {canonical : Messages}

/-- A status looks at the batch, if there is one. -/
theorem run_projectStatus_of_opened (hopened : Opened options before project)
    {found : Option Batch} (hbatch : project.catalog.loadBatch before = .ok found) :
    runIn (projectStatus options) before =
      (.ok (.status (found.map batchStatus) project.catalog.batch), before) := by
  unfold projectStatus
  rw [FileAction.run_bind, FileAction.run_inspect, openProject_eq_ok.2 hopened]
  show runIn (FileAction.inspect _ >>= _) before = _
  rw [FileAction.run_bind, FileAction.run_inspect, hbatch]
  rfl

/-- The command puts the outcome of the merge into its own words. -/
theorem run_mergeProject (hopened : Opened options before project) :
    runIn (mergeProject options) before =
      (match (runIn (Merge.merge project.catalog) before).1 with
        | .ok report => .ok (.merged report project.catalog.batch)
        | .error (.nothingToMerge _) => .ok (.nothingToMerge project.catalog.batch)
        | .error (.incomplete problems) => .ok (.rejected problems project.catalog.batch)
        | .error error => .error (.merge error),
      (runIn (Merge.merge project.catalog) before).2) := by
  unfold mergeProject
  rw [FileAction.run_bind, FileAction.run_inspect, openProject_eq_ok.2 hopened]
  show runIn (FileAction.outcome _ >>= _) before = _
  rw [FileAction.run_bind, FileAction.run_outcome]
  rcases runIn (Merge.merge project.catalog) before with ⟨result, after⟩
  cases result with
  | ok report => rfl
  | error error => cases error <;> rfl

namespace Readable

variable (h : Readable options before project batch canonical)

include h

/-- Problems of the batch are told, and nothing is changed. -/
theorem run_of_problems (hproblems : batch.problems project.catalog.locales canonical ≠ []) :
    runIn (mergeProject options) before =
      (.ok (.rejected (batch.problems project.catalog.locales canonical) project.catalog.batch),
        before) := by
  rw [run_mergeProject h.opened,
    Merge.merge_of_refusal (.incomplete h.loaded h.known hproblems)]

/-- A batch without problems and without entries gives nothing to merge. -/
theorem run_of_nothing (hproblems : batch.problems project.catalog.locales canonical = [])
    (hnone : ∀ (locale : String) (entries : Messages), batch[locale]? = some entries →
      entries = ∅) :
    runIn (mergeProject options) before = (.error (.merge .nothingMerged), before) := by
  rw [run_mergeProject h.opened,
    Merge.merge_of_refusal (.nothing h.loaded h.known hproblems h.stores hnone)]

/-- There is no other reason to refuse the merge. -/
theorem not_refusal {error : Merge.Error}
    (hproblems : batch.problems project.catalog.locales canonical = [])
    (hentry : ∃ (locale : String) (entries : Messages), batch[locale]? = some entries ∧
      entries ≠ ∅) : ¬ Merge.Refusal project.catalog before error := by
  intro hrefusal
  have hsame {found : Option Batch} (hfound : project.catalog.loadBatch before = .ok found) :
      found = some batch := Except.ok.inj (hfound.symm.trans h.loaded)
  cases hrefusal with
  | batchUnreadable hbatch =>
    rw [h.loaded] at hbatch
    cases hbatch
  | noBatch hbatch => cases hsame (readFile_eq_none_iff.2 hbatch)
  | canonicalUnreadable hbatch hcanonical =>
    rw [h.known] at hcanonical
    cases hcanonical
  | incomplete hbatch hcanonical hsome =>
    cases hsame hbatch
    rw [h.known] at hcanonical
    cases hcanonical
    exact hsome hproblems
  | @malformed _ _ _ _ locale entries _ _ hbatch _ _ hsplit _ hstore =>
    cases hsame hbatch
    have hmem : (locale, entries) ∈ batch.toList := by simp [hsplit]
    obtain ⟨store, hload⟩ := h.stores locale (mem_iff_exists_getElem?.2
      ⟨entries, Std.ExtTreeMap.mem_toList_iff_getElem?_eq_some.1 hmem⟩)
    rw [hstore] at hload
    cases hload
  | nothing hbatch _ _ _ hnone =>
    cases hsame hbatch
    obtain ⟨locale, entries, hfound, hsome⟩ := hentry
    exact hsome (hnone locale entries hfound)

/-- A merge that is not refused writes the stores, or fails over a file. -/
theorem not_mergeRefused (hproblems : batch.problems project.catalog.locales canonical = [])
    (hentry : ∃ (locale : String) (entries : Messages), batch[locale]? = some entries ∧
      entries ≠ ∅) : ¬ MergeRefused options before := by
  obtain ⟨plan, written, between, -, -, retired, after, -, hrun⟩ :=
    Merge.merge_of_not_refusal fun error => h.not_refusal hproblems hentry
  unfold MergeRefused
  rw [run_mergeProject h.opened, hrun]
  cases retired <;> simp

/-- A merge of entries that all have texts is not refused just if they are addressed to the
    project. -/
theorem not_mergeRefused_iff (hfilled : batch.Filled) :
    ¬ MergeRefused options before ↔ batch.Addressed project.catalog.locales canonical := by
  have hfits : batch.problems project.catalog.locales canonical = [] ↔ _ :=
    problems_eq_nil_iff_of_filled hfilled
  constructor
  · intro hnot
    have hproblems : batch.problems project.catalog.locales canonical = [] := by
      by_contra hsome
      exact hnot (.inl ⟨_, _, congrArg Prod.fst (h.run_of_problems hsome)⟩)
    refine ⟨(hfits.1 hproblems).1, (hfits.1 hproblems).2, ?_⟩
    by_contra hnone
    have hempty (locale : String) (entries : Messages) (hfound : batch[locale]? = some entries) :
        entries = ∅ := by
      by_contra hentries
      exact hnone ⟨locale, entries, hfound, hentries⟩
    exact hnot (.inr (congrArg Prod.fst (h.run_of_nothing hproblems hempty)))
  · intro haddressed
    exact h.not_mergeRefused (hfits.2 ⟨haddressed.locale, haddressed.key⟩) haddressed.entry

end Readable

theorem saysReady_iff {colours : Bool} {path : Path} :
    SaysReady colours (.status (some (batchStatus batch)) path) ↔
      ((batchStatus batch).map (·.blank)).sum = 0 := by
  unfold SaysReady Outcome.report statusLines
  dsimp only
  rw [List.getLast?_concat, Option.some_inj, statusAdvice_eq_iff, List.sum_eq_foldl,
    List.foldl_map]

/-- Wherever the files can be read, a status foretells the merge as far as blank entries go. -/
theorem foretold_of_readable (h : Readable options before project batch canonical)
    (colours : Bool) : Foretold colours options before project batch canonical := by
  constructor
  case status => exact run_projectStatus_of_opened h.opened h.loaded
  case ready => exact saysReady_iff
  case blank =>
    intro hblank
    have hproblems : batch.problems project.catalog.locales canonical ≠ [] := by
      intro hnone
      have hfilled : batch.Filled := fun locale entries hfound key text hentry =>
        ((Batch.problems_eq_nil_iff.1 hnone locale entries hfound).2.2 key text hentry).2
      have hzero := blanks_eq_zero_iff.2 hfilled
      omega
    exact ⟨_, hproblems, h.run_of_problems hproblems⟩
  case addressed =>
    intro hready
    exact h.not_mergeRefused_iff (blanks_eq_zero_iff.1 (saysReady_iff.1 hready))

/-! ## 4. Examples -/

/-- Whether all that `Readable` asks for can be read. -/
def isReadable (options : Options) (workspace : Workspace) : Bool :=
  (options.openProject workspace).toOption.any fun project =>
    (project.catalog.loadBatch workspace).toOption.any fun found => found.any fun batch =>
      (project.catalog.loadStore project.catalog.locales.canonical workspace).isOk &&
        batch.keys.all fun locale => (project.catalog.loadStore locale workspace).isOk

theorem exists_readable (h : isReadable options before = true) :
    ∃ project batch canonical, Readable options before project batch canonical := by
  have hload {ε α : Type} {result : Except ε α} (hok : result.isOk = true) :
      ∃ a, result = .ok a := by
    cases result with
    | error => cases hok
    | ok a => exact ⟨a, rfl⟩
  unfold isReadable at h
  cases hproject : options.openProject before with
  | error => simp [hproject, Except.toOption] at h
  | ok project =>
    cases hbatch : project.catalog.loadBatch before with
    | error => simp [hproject, hbatch, Except.toOption] at h
    | ok found =>
      cases found with
      | none => simp [hproject, hbatch, Except.toOption] at h
      | some batch =>
        simp only [hproject, hbatch, Except.toOption, Option.any_some, Bool.and_eq_true,
          List.all_eq_true, Std.ExtTreeMap.mem_keys] at h
        obtain ⟨canonical, hcanonical⟩ := hload h.1
        exact ⟨project, batch, canonical, openProject_eq_ok.1 hproject, hbatch, hcanonical,
          fun locale hlocale => hload (h.2 locale hlocale)⟩

/-- A project of two locales, with a batch that asks for one text and has it. -/
def sampleProject : Workspace where
  tree := ⟨.ofList [
    (["p"], Entry.directory),
    (["p", ".glotsyncrc.json"],
      Entry.file "\x7b\"locales\": [\"en\", \"fr\"]\x7d".toUTF8),
    (["p", "locales"], Entry.directory),
    (["p", "locales", "en.json"], Entry.file (Messages.ofEntries
      [("a", "a"), ("b", "b")]).write.toUTF8),
    (["p", "pending-translations.json"], Entry.file (Batch.ofEntries
      [("fr", Messages.ofEntries [("a", "A")])]).write.toUTF8)], fun _ => none⟩
  current := ["p"]

theorem foretold_sample : ∃ project batch canonical,
    Readable {} sampleProject project batch canonical ∧
      Foretold false {} sampleProject project batch canonical := by
  obtain ⟨project, batch, canonical, h⟩ := @exists_readable {} sampleProject (by decide +kernel)
  exact ⟨project, batch, canonical, h, foretold_of_readable h false⟩

/-- A project without settings of its own, with a batch for a locale that it does not have. -/
def strayedBatch : Workspace where
  tree := ⟨.ofList [
    (["p"], Entry.directory),
    (["p", "pending-translations.json"], Entry.file (Batch.ofEntries
      [("fr", Messages.ofEntries [("a", "A")])]).write.toUTF8)], fun _ => none⟩
  current := ["p"]

/-- The status calls this batch ready, and the merge refuses it. -/
theorem ready_and_refused :
    (∃ project batch canonical, Readable {} strayedBatch project batch canonical) ∧
    (∃ outcome, (runIn (projectStatus {}) strayedBatch).1 = .ok outcome ∧
      SaysReady false outcome) ∧
    MergeRefused {} strayedBatch := by
  refine ⟨exists_readable (by decide +kernel), ?_, .inl ?_⟩
  · obtain ⟨outcome, hrun, hready⟩ := FileAction.exists_of_any (projectStatus {}) strayedBatch
      (fun outcome => SaysReady false outcome) (by decide +kernel)
    exact ⟨outcome, congrArg Prod.fst hrun, of_decide_eq_true hready⟩
  · obtain ⟨outcome, hrun, hrejected⟩ := FileAction.exists_of_any (mergeProject {}) strayedBatch
      (fun | .rejected _ _ => true | _ => false) (by decide +kernel)
    cases outcome with
    | rejected problems path => exact ⟨problems, path, congrArg Prod.fst hrun⟩
    | _ => cases hrejected

end Command

end LocaleCatalog
