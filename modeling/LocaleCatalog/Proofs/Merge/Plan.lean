import LocaleCatalog.Merge.Run
import LocaleCatalog.Proofs.Catalog.Messages
import LocaleCatalog.Proofs.FileTree.Reach

/-!
# What a merge plans

* `Batch.problems_eq_nil_iff`: a batch without problems holds entries of translated locales, with
  known keys and with texts;
* `Merge.readTargets_of_malformed`: the first malformed store ends the reading of the stores;
* `Merge.readTargets_eq_ok`: where there is none, each locale of the batch is a target or has
  failed, as its store could be read or not.
-/

namespace LocaleCatalog

/-! ## 1. Problems -/

theorem entryProblem?_eq_none_iff {canonical : Messages} {locale key text : String} :
    entryProblem? canonical locale key text = none ↔
      canonical.contains key = true ∧ ¬ Text.Blank text := by
  unfold entryProblem?
  split
  · rename_i hunknown
    exact iff_of_false (by simp) fun h => hunknown h.1
  · rename_i hknown
    split
    · rename_i hblank
      exact iff_of_false (by simp) fun h => h.2 hblank
    · rename_i hblank
      exact iff_of_true rfl ⟨by simpa using hknown, hblank⟩

theorem localeProblems_eq_nil_iff {locales : LocaleSet} {canonical : Messages} {locale : String}
    {entries : Messages} :
    localeProblems locales canonical locale entries = [] ↔
      locale ∈ locales ∧ locale ≠ locales.canonical ∧
        ∀ key text, entries[key]? = some text →
          canonical.contains key = true ∧ ¬ Text.Blank text := by
  unfold localeProblems
  split
  · rename_i hunknown
    exact iff_of_false (by simp) fun h => hunknown h.1
  · rename_i hknown
    split
    · rename_i hcanonical
      exact iff_of_false (by simp) fun h => h.2.1 hcanonical
    · rename_i hother
      rw [List.filterMap_eq_nil_iff, and_iff_right (not_not.1 hknown), and_iff_right hother]
      constructor
      · intro h key text hentry
        exact entryProblem?_eq_none_iff.1
          (h (key, text) (Std.ExtTreeMap.mem_toList_iff_getElem?_eq_some.2 hentry))
      · rintro h ⟨key, text⟩ hentry
        exact entryProblem?_eq_none_iff.2
          (h key text (Std.ExtTreeMap.mem_toList_iff_getElem?_eq_some.1 hentry))

/-- A batch has no problems just if every locale is a translated one, and every entry has a known
    key and a text. -/
theorem Batch.problems_eq_nil_iff {batch : Batch} {locales : LocaleSet} {canonical : Messages} :
    batch.problems locales canonical = [] ↔ ∀ locale entries, batch[locale]? = some entries →
      locale ∈ locales ∧ locale ≠ locales.canonical ∧
        ∀ key text, entries[key]? = some text →
          canonical.contains key = true ∧ ¬ Text.Blank text := by
  unfold problems
  rw [List.flatMap_eq_nil_iff]
  constructor
  · intro h locale entries hfound
    exact localeProblems_eq_nil_iff.1
      (h (locale, entries) (Std.ExtTreeMap.mem_toList_iff_getElem?_eq_some.2 hfound))
  · rintro h ⟨locale, entries⟩ hfound
    exact localeProblems_eq_nil_iff.2
      (h locale entries (Std.ExtTreeMap.mem_toList_iff_getElem?_eq_some.1 hfound))

namespace Merge

/-! ## 2. Entries -/

/-- Entries that all have a text are all applied. -/
theorem filledEntries_eq {entries : Messages}
    (h : ∀ key text : String, entries[key]? = some text → ¬ Text.Blank text) :
    filledEntries entries = entries.toList := by
  unfold filledEntries
  refine List.filter_eq_self.2 fun ⟨key, text⟩ hentry => decide_eq_true ?_
  exact h key text (Std.ExtTreeMap.mem_toList_iff_getElem?_eq_some.1 hentry)

/-- Where there are entries, there are some to apply. -/
theorem filledEntries_ne_nil {entries : Messages} (hsome : entries ≠ ∅)
    (h : ∀ key text : String, entries[key]? = some text → ¬ Text.Blank text) :
    filledEntries entries ≠ [] := by
  rw [filledEntries_eq h]
  exact fun hnil => hsome (Std.ExtTreeMap.toList_eq_nil_iff.1 hnil)

/-- The store with the entries holds the text of an entry before its own. -/
theorem getElem?_applyEntries {store entries : Messages}
    (h : ∀ key text : String, entries[key]? = some text → ¬ Text.Blank text) (key : String) :
    (applyEntries store entries)[key]? = entries[key]?.or store[key]? := by
  unfold applyEntries filledEntries
  rw [getElem?_insertAll]
  cases hentry : entries[key]? with
  | none => rfl
  | some text =>
    rw [Option.filter_some, if_pos (decide_eq_true (h key text hentry))]

/-! ## 3. Reading the stores -/

variable {catalog : Catalog} {workspace : Workspace} {entries : List (String × Messages)}

/-- The store of the locale is there and is no store. -/
def MalformedStore (catalog : Catalog) (workspace : Workspace) (locale : String) : Prop :=
  ∃ path malformation,
    catalog.loadStore locale workspace = .error (.malformed path malformation)

/-- A locale of the batch, if its store can be read. -/
def target? (catalog : Catalog) (workspace : Workspace) (entry : String × Messages) :
    Option Target :=
  match catalog.loadStore entry.1 workspace with
  | .ok store => some ⟨entry.1, entry.2, store⟩
  | .error _ => none

theorem target?_eq_some_iff {entry : String × Messages} {target : Target} :
    target? catalog workspace entry = some target ↔
      entry = (target.locale, target.entries) ∧
        catalog.loadStore target.locale workspace = .ok target.store := by
  unfold target?
  constructor
  · intro h
    split at h
    · rename_i store hstore
      cases h
      exact ⟨rfl, hstore⟩
    · cases h
  · rintro ⟨rfl, hstore⟩
    dsimp only
    rw [hstore]

theorem readTargets_cons (entry : String × Messages) :
    readTargets catalog workspace (entry :: entries) =
      match catalog.loadStore entry.1 workspace with
      | .ok store => do
        let (targets, failures) ← readTargets catalog workspace entries
        return (⟨entry.1, entry.2, store⟩ :: targets, failures)
      | .error (.malformed path malformation) => .error (.malformed path malformation)
      | .error error => do
        let (targets, failures) ← readTargets catalog workspace entries
        return (targets, failures.insert entry.1 error) := by
  rfl

/-- A locale whose store is not malformed is set aside or becomes a target. -/
theorem readTargets_cons_of_not_malformed {entry : String × Messages}
    (h : ¬ MalformedStore catalog workspace entry.1) :
    readTargets catalog workspace (entry :: entries) =
      match readTargets catalog workspace entries with
      | .error error => .error error
      | .ok (targets, failures) =>
        match catalog.loadStore entry.1 workspace with
        | .ok store => .ok (⟨entry.1, entry.2, store⟩ :: targets, failures)
        | .error error => .ok (targets, failures.insert entry.1 error) := by
  rw [readTargets_cons]
  cases hload : catalog.loadStore entry.1 workspace with
  | ok store => cases readTargets catalog workspace entries <;> rfl
  | error error =>
    cases error with
    | malformed path malformation => exact absurd ⟨path, malformation, hload⟩ h
    | io path error => cases readTargets catalog workspace entries <;> rfl

/-- The first malformed store ends the reading, whatever the stores before it were like. -/
theorem readTargets_of_malformed {earlier later : List (String × Messages)} {locale : String}
    {found : Messages} {path : Path} {malformation : Json.Malformation}
    (hfirst : ∀ entry ∈ earlier, ¬ MalformedStore catalog workspace entry.1)
    (h : catalog.loadStore locale workspace = .error (.malformed path malformation)) :
    readTargets catalog workspace (earlier ++ (locale, found) :: later) =
      .error (.malformed path malformation) := by
  induction earlier with
  | nil =>
    show readTargets catalog workspace ((locale, found) :: later) = _
    rw [readTargets_cons, h]
  | cons entry earlier ih =>
    have hmore := ih fun other hother => hfirst other (List.mem_cons_of_mem _ hother)
    rw [List.cons_append, readTargets_cons_of_not_malformed (hfirst entry List.mem_cons_self), hmore]

/-- Without malformed stores, each locale becomes a target or has failed. -/
theorem readTargets_eq_ok (h : ∀ entry ∈ entries, ¬ MalformedStore catalog workspace entry.1) :
    ∃ failures, readTargets catalog workspace entries =
        .ok (entries.filterMap (target? catalog workspace), failures) ∧
      ∀ locale error, failures[locale]? = some error ↔
        locale ∈ entries.map (·.1) ∧ catalog.loadStore locale workspace = .error error := by
  induction entries with
  | nil => exact ⟨∅, rfl, fun _ _ => by simp⟩
  | cons entry entries ih =>
    obtain ⟨failures, hread, hfailures⟩ := ih fun other hother => h other (.tail _ hother)
    have hstep : readTargets catalog workspace (entry :: entries) = _ :=
      readTargets_cons_of_not_malformed (h entry (.head _))
    rw [hread] at hstep
    rw [List.filterMap_cons]
    unfold target?
    cases hload : catalog.loadStore entry.1 workspace with
    | ok store =>
      rw [hload] at hstep
      refine ⟨failures, hstep, fun locale error => ?_⟩
      rw [hfailures, List.map_cons, List.mem_cons, or_and_right]
      refine (or_iff_right ?_).symm
      rintro ⟨rfl, herror⟩
      rw [hload] at herror
      cases herror
    | error error =>
      rw [hload] at hstep
      refine ⟨failures.insert entry.1 error, hstep, fun locale error' => ?_⟩
      rw [Std.ExtTreeMap.getElem?_insert, List.map_cons, List.mem_cons]
      by_cases heq : entry.1 = locale
      · subst heq
        rw [if_pos Std.ReflCmp.compare_self, hload, and_iff_right (.inl rfl), Option.some_inj,
          Except.error.injEq]
      · rw [if_neg fun hcompare => heq (Std.LawfulEqOrd.eq_of_compare hcompare), hfailures,
          or_iff_right fun h => heq h.symm]

/-- The stores could only be read if none is malformed. -/
theorem not_malformed_of_readTargets {targets : List Target} {failures : Failures}
    (h : readTargets catalog workspace entries = .ok (targets, failures)) :
    ∀ entry ∈ entries, ¬ MalformedStore catalog workspace entry.1 := by
  by_contra hsome
  obtain ⟨earlier, entry, later, rfl, ⟨path, malformation, hload⟩, hfirst⟩ := exists_first hsome
  rw [readTargets_of_malformed hfirst hload] at h
  cases h

/-! ## 4. The plan -/

/-- With a batch that has no problems, the stores decide. -/
theorem Plan.make_eq {batch : Batch} {canonical : Messages}
    (hbatch : catalog.loadBatch workspace = .ok (some batch))
    (hcanonical : catalog.loadStore catalog.locales.canonical workspace = .ok canonical)
    (hproblems : batch.problems catalog.locales canonical = []) :
    Plan.make catalog workspace =
      match readTargets catalog workspace batch.toList with
      | .ok (targets, unreadable) => .ok { batch, targets, unreadable }
      | .error error => .error (.store error) := by
  unfold Plan.make
  rw [hbatch]
  simp only [Except.mapError, bind, Except.bind, hcanonical, hproblems]
  cases readTargets catalog workspace batch.toList <;> rfl

/-- Without malformed stores there is a plan. -/
theorem Plan.exists_make_eq {batch : Batch} {canonical : Messages}
    (hbatch : catalog.loadBatch workspace = .ok (some batch))
    (hcanonical : catalog.loadStore catalog.locales.canonical workspace = .ok canonical)
    (hproblems : batch.problems catalog.locales canonical = [])
    (hsound : ∀ entry ∈ batch.toList, ¬ MalformedStore catalog workspace entry.1) :
    ∃ plan, Plan.make catalog workspace = .ok plan ∧ plan.batch = batch := by
  obtain ⟨unreadable, hread, -⟩ := readTargets_eq_ok hsound
  have hplan := Plan.make_eq hbatch hcanonical hproblems
  rw [hread] at hplan
  exact ⟨_, hplan, rfl⟩

/-- A plan is made of a batch that has no problems and of what became of its locales. -/
theorem Plan.make_eq_ok {plan : Plan} (h : Plan.make catalog workspace = .ok plan) :
    ∃ canonical, catalog.loadBatch workspace = .ok (some plan.batch) ∧
      catalog.loadStore catalog.locales.canonical workspace = .ok canonical ∧
      plan.batch.problems catalog.locales canonical = [] ∧
      readTargets catalog workspace plan.batch.toList = .ok (plan.targets, plan.unreadable) := by
  obtain ⟨found, hfound, hrest⟩ := bind_eq_ok.1 h
  have hbatch := mapError_eq_ok.1 hfound
  cases found with
  | none => cases hrest
  | some batch =>
    obtain ⟨canonical, hload, hrest⟩ := bind_eq_ok.1 hrest
    have hcanonical := mapError_eq_ok.1 hload
    by_cases hproblems : batch.problems catalog.locales canonical = []
    · rw [Plan.make_eq hbatch hcanonical hproblems] at h
      split at h
      · rename_i targets unreadable hread
        cases h
        exact ⟨canonical, hbatch, hcanonical, hproblems, hread⟩
      · cases h
    · rw [if_pos hproblems] at hrest
      cases hrest

/-! ## 5. What a plan holds -/

section Plan

variable {plan : Plan} (h : Plan.make catalog workspace = .ok plan)

include h

/-- The targets are the locales of the batch whose stores could be read, in the order of the batch;
    the others are set aside with the reason. -/
theorem Plan.readTargets_spec :
    plan.targets = plan.batch.toList.filterMap (target? catalog workspace) ∧
      ∀ locale error, plan.unreadable[locale]? = some error ↔
        locale ∈ plan.batch ∧ catalog.loadStore locale workspace = .error error := by
  obtain ⟨-, -, -, -, hread⟩ := Plan.make_eq_ok h
  obtain ⟨failures, hread', hfailures⟩ := readTargets_eq_ok (not_malformed_of_readTargets hread)
  rw [hread, Except.ok.injEq, Prod.mk.injEq] at hread'
  obtain ⟨htargets, hunreadable⟩ := hread'
  refine ⟨htargets, fun locale error => ?_⟩
  rw [hunreadable, hfailures]
  refine and_congr_left fun _ => ?_
  rw [← Std.ExtTreeMap.mem_keys, ← Std.ExtTreeMap.map_fst_toList_eq_keys]

theorem Plan.mem_targets_iff {target : Target} : target ∈ plan.targets ↔
    plan.batch[target.locale]? = some target.entries ∧
      catalog.loadStore target.locale workspace = .ok target.store := by
  rw [(Plan.readTargets_spec h).1, List.mem_filterMap,
    ← Std.ExtTreeMap.mem_toList_iff_getElem?_eq_some]
  constructor
  · rintro ⟨entry, hentry, htarget⟩
    obtain ⟨rfl, hstore⟩ := target?_eq_some_iff.1 htarget
    exact ⟨hentry, hstore⟩
  · rintro ⟨hentry, hstore⟩
    exact ⟨_, hentry, target?_eq_some_iff.2 ⟨rfl, hstore⟩⟩

theorem Plan.mem_unreadable_iff {locale : String} : locale ∈ plan.unreadable ↔
    locale ∈ plan.batch ∧ ∃ error, catalog.loadStore locale workspace = .error error := by
  rw [mem_iff_exists_getElem?]
  simp only [(Plan.readTargets_spec h).2, exists_and_left]

theorem Plan.targets_sublist :
    (plan.targets.map (·.locale)).Sublist (plan.batch.toList.map (·.1)) := by
  rw [(Plan.readTargets_spec h).1]
  induction plan.batch.toList with
  | nil => exact List.Sublist.slnil
  | cons entry entries ih =>
    rw [List.filterMap_cons]
    cases htarget : target? catalog workspace entry with
    | none => exact ih.cons _
    | some target =>
      obtain ⟨rfl, -⟩ := target?_eq_some_iff.1 htarget
      exact ih.cons_cons _

/-- A planned batch holds entries of translated locales, all with texts. -/
theorem Plan.batch_spec {locale : String} {entries : Messages}
    (hentries : plan.batch[locale]? = some entries) :
    locale ∈ catalog.locales.locales ∧ locale ≠ catalog.locales.canonical ∧
      ∀ key text : String, entries[key]? = some text → ¬ Text.Blank text := by
  obtain ⟨canonical, -, -, hproblems, -⟩ := Plan.make_eq_ok h
  obtain ⟨hlocale, hother, htexts⟩ := Batch.problems_eq_nil_iff.1 hproblems _ _ hentries
  exact ⟨hlocale, hother, fun key text htext => (htexts key text htext).2⟩

end Plan

end Merge

end LocaleCatalog
