import LocaleCatalog.Proofs.Merge.Write

/-!
# When a merge is refused

`Merge.Refusal` lists the reasons for which a merge does not happen, each with all that must have
gone well before it. `Merge.merge_of_refusal` says that each of them ends the merge with its error
and with the workspace as it was; `Merge.merge_of_not_refusal` says that without them the merge gets
to the end, where only the batch can still fail to be taken away or rewritten.
-/

namespace LocaleCatalog.Merge

open FileAction (runIn)

variable {catalog : Catalog} {before after : Workspace} {error : Error}

/-! ## 1. The reasons -/

/-- The merge is refused with this error. -/
inductive Refusal (catalog : Catalog) (workspace : Workspace) : Error → Prop where
  | batchUnreadable {failure : StoreError} (hbatch : catalog.loadBatch workspace = .error failure) :
      Refusal catalog workspace (.store failure)
  /-- The batch is missing or blank. -/
  | noBatch (hbatch : workspace.readText catalog.batch = .error .notFound ∨
        ∃ text, workspace.readText catalog.batch = .ok text ∧ Text.Blank text) :
      Refusal catalog workspace (.nothingToMerge catalog.batch)
  | canonicalUnreadable {batch : Batch} {failure : StoreError}
      (hbatch : catalog.loadBatch workspace = .ok (some batch))
      (hcanonical : catalog.loadStore catalog.locales.canonical workspace = .error failure) :
      Refusal catalog workspace (.store failure)
  | incomplete {batch : Batch} {canonical : Messages}
      (hbatch : catalog.loadBatch workspace = .ok (some batch))
      (hcanonical : catalog.loadStore catalog.locales.canonical workspace = .ok canonical)
      (hproblems : batch.problems catalog.locales canonical ≠ []) :
      Refusal catalog workspace (.incomplete (batch.problems catalog.locales canonical))
  /-- The first malformed store counts; stores before it may have failed in another way. -/
  | malformed {batch : Batch} {canonical : Messages} {earlier later : List (String × Messages)}
      {locale : String} {entries : Messages} {path : Path} {malformation : Json.Malformation}
      (hbatch : catalog.loadBatch workspace = .ok (some batch))
      (hcanonical : catalog.loadStore catalog.locales.canonical workspace = .ok canonical)
      (hproblems : batch.problems catalog.locales canonical = [])
      (hsplit : batch.toList = earlier ++ (locale, entries) :: later)
      (hfirst : ∀ entry ∈ earlier, ¬ MalformedStore catalog workspace entry.1)
      (hstore : catalog.loadStore locale workspace = .error (.malformed path malformation)) :
      Refusal catalog workspace (.store (.malformed path malformation))
  | nothing {batch : Batch} {canonical : Messages}
      (hbatch : catalog.loadBatch workspace = .ok (some batch))
      (hcanonical : catalog.loadStore catalog.locales.canonical workspace = .ok canonical)
      (hproblems : batch.problems catalog.locales canonical = [])
      (hstores : ∀ locale ∈ batch, ∃ store, catalog.loadStore locale workspace = .ok store)
      (hnone : ∀ (locale : String) (entries : Messages), batch[locale]? = some entries → entries = ∅) :
      Refusal catalog workspace .nothingMerged

/-! ## 2. Nothing to merge -/

/-- Nothing was merged and nothing failed, just if all stores could be read and there was no entry
    at all. -/
theorem nothing_iff {plan : Plan} {merged : List (String × Nat)} {unwritten : Failures}
    (h : Plan.make catalog before = .ok plan)
    (hwrites : Writes catalog before plan.targets merged unwritten after) :
    merged = [] ∧ (plan.unreadable ∪ unwritten).isEmpty = true ↔
      (∀ locale ∈ plan.batch, ∃ store, catalog.loadStore locale before = .ok store) ∧
        ∀ (locale : String) (entries : Messages), plan.batch[locale]? = some entries → entries = ∅ := by
  have hread : plan.unreadable = ∅ ↔
      ∀ locale ∈ plan.batch, ∃ store, catalog.loadStore locale before = .ok store := by
    rw [Std.ExtTreeMap.eq_empty_iff_forall_not_mem]
    refine forall_congr' fun locale => ?_
    rw [Plan.mem_unreadable_iff h, not_and]
    refine imp_congr_right fun _ => ?_
    cases catalog.loadStore locale before <;> simp
  rw [Std.ExtTreeMap.isEmpty_union, Bool.and_eq_true, Std.ExtTreeMap.isEmpty_iff,
    Std.ExtTreeMap.isEmpty_iff, and_left_comm, hwrites.eq_nil_iff, hread]
  refine and_congr_right fun hstores => ?_
  have hempty {locale : String} {entries : Messages}
      (hentries : plan.batch[locale]? = some entries) :
      filledEntries entries = [] ↔ entries = ∅ := by
    rw [filledEntries_eq (Plan.batch_spec h hentries).2.2, Std.ExtTreeMap.toList_eq_nil_iff]
  constructor
  · intro hnone locale entries hentries
    obtain ⟨store, hstore⟩ := hstores locale
      (mem_iff_exists_getElem?.2 ⟨entries, hentries⟩)
    exact (hempty hentries).1
      (hnone ⟨locale, entries, store⟩ ((Plan.mem_targets_iff h).2 ⟨hentries, hstore⟩))
  · intro hnone target htarget
    have hentries := ((Plan.mem_targets_iff h).1 htarget).1
    exact (hempty hentries).2 (hnone _ _ hentries)

/-! ## 3. The gate -/

/-- A refused merge ends with the error of its refusal, and nothing is changed. -/
theorem merge_of_refusal (h : Refusal catalog before error) :
    runIn (merge catalog) before = (.error error, before) := by
  cases h with
  | batchUnreadable hbatch =>
    refine run_merge_of_error ?_
    unfold Plan.make
    rw [hbatch]
    rfl
  | noBatch hbatch =>
    refine run_merge_of_error ?_
    unfold Plan.make Catalog.loadBatch
    rw [readFile_eq_none_iff.2 hbatch]
    rfl
  | canonicalUnreadable hbatch hcanonical =>
    refine run_merge_of_error ?_
    unfold Plan.make
    rw [hbatch]
    simp only [Except.mapError, bind, Except.bind, hcanonical]
  | incomplete hbatch hcanonical hproblems =>
    refine run_merge_of_error ?_
    unfold Plan.make
    rw [hbatch]
    simp only [Except.mapError, bind, Except.bind, hcanonical, if_pos hproblems]
    rfl
  | malformed hbatch hcanonical hproblems hsplit hfirst hstore =>
    refine run_merge_of_error ?_
    rw [Plan.make_eq hbatch hcanonical hproblems, hsplit, readTargets_of_malformed hfirst hstore]
  | @nothing batch _ hbatch hcanonical hproblems hstores hnone =>
    have hsound : ∀ entry ∈ batch.toList, ¬ MalformedStore catalog before entry.1 := by
      rintro entry hentry ⟨path, malformation, hfailed⟩
      have hmem : entry.1 ∈ batch.toList.map (·.1) := List.mem_map_of_mem hentry
      rw [Std.ExtTreeMap.map_fst_toList_eq_keys, Std.ExtTreeMap.mem_keys] at hmem
      obtain ⟨store, hstore⟩ := hstores _ hmem
      rw [hstore] at hfailed
      cases hfailed
    obtain ⟨plan, hplan, rfl⟩ := Plan.exists_make_eq hbatch hcanonical hproblems hsound
    obtain ⟨merged, unwritten, between, hwrites, -, hrun⟩ := run_merge hplan
    have hnothing := (nothing_iff hplan hwrites).2 ⟨hstores, hnone⟩
    have hnofailure := Std.ExtTreeMap.isEmpty_union.symm.trans hnothing.2
    rw [Bool.and_eq_true, Std.ExtTreeMap.isEmpty_iff (t := unwritten)] at hnofailure
    have hkept := hwrites.eq_of_forall (hwrites.eq_nil_iff.1 ⟨hnothing.1, hnofailure.2⟩)
    rw [hrun, if_pos hnothing, hkept]

/-- Without a reason to refuse it there is a plan. -/
theorem exists_plan (h : ∀ error, ¬ Refusal catalog before error) :
    ∃ plan, Plan.make catalog before = .ok plan := by
  cases hbatch : catalog.loadBatch before with
  | error failure => exact absurd (.batchUnreadable hbatch) (h _)
  | ok found =>
    cases found with
    | none => exact absurd (.noBatch (readFile_eq_none_iff.1 hbatch)) (h _)
    | some batch =>
      cases hcanonical : catalog.loadStore catalog.locales.canonical before with
      | error failure => exact absurd (.canonicalUnreadable hbatch hcanonical) (h _)
      | ok canonical =>
        by_cases hproblems : batch.problems catalog.locales canonical = []
        · by_cases hsound : ∀ entry ∈ batch.toList, ¬ MalformedStore catalog before entry.1
          · obtain ⟨plan, hplan, -⟩ := Plan.exists_make_eq hbatch hcanonical hproblems hsound
            exact ⟨plan, hplan⟩
          · obtain ⟨earlier, ⟨locale, entries⟩, later, hsplit, ⟨path, malformation, hstore⟩,
              hfirst⟩ := exists_first hsound
            exact absurd (.malformed hbatch hcanonical hproblems hsplit hfirst hstore) (h _)
        · exact absurd (.incomplete hbatch hcanonical hproblems) (h _)

/-- A merge that is not refused writes the stores. It can still fail when it retires the batch, and
    in no other way. -/
theorem merge_of_not_refusal (h : ∀ error, ¬ Refusal catalog before error) :
    ∃ plan written between, Plan.make catalog before = .ok plan ∧
      runIn (writeTargets catalog plan.targets) before = (.ok written, between) ∧
      ∃ result after,
        runIn (retireBatch catalog plan.batch (plan.unreadable ∪ written.failures)) between =
          (result, after) ∧
        runIn (merge catalog) before =
          match result with
          | .ok retired =>
            (.ok ⟨written.merged, written.locales, plan.unreadable ∪ written.failures, retired⟩,
              after)
          | .error failure => (.error (.store failure), after) := by
  obtain ⟨plan, hplan⟩ := exists_plan h
  obtain ⟨merged, unwritten, between, hwrites, hwrite, hrun⟩ := run_merge hplan
  have hsome : ¬ (merged = [] ∧ (plan.unreadable ∪ unwritten).isEmpty = true) := by
    intro hnothing
    obtain ⟨hstores, hnone⟩ := (nothing_iff hplan hwrites).1 hnothing
    obtain ⟨canonical, hbatch, hcanonical, hproblems, -⟩ := Plan.make_eq_ok hplan
    exact h _ (.nothing hbatch hcanonical hproblems hstores hnone)
  rw [if_neg hsome] at hrun
  rcases hretire : runIn (retireBatch catalog plan.batch (plan.unreadable ∪ unwritten)) between with
    ⟨result, after⟩
  rw [hretire] at hrun
  refine ⟨plan, _, between, hplan, hwrite, result, after, hretire, ?_⟩
  cases result <;> exact hrun

/-- A merge is all or nothing at first: for the first reason against it, it ends with the error of
    that reason and changes nothing; without one, only the retirement of the batch can fail. -/
theorem merge_gate (catalog : Catalog) (before : Workspace) :
    (∀ error, Refusal catalog before error →
      runIn (merge catalog) before = (.error error, before)) ∧
    ((∀ error, ¬ Refusal catalog before error) →
      ∃ plan written between, Plan.make catalog before = .ok plan ∧
        runIn (writeTargets catalog plan.targets) before = (.ok written, between) ∧
        ∃ result after,
          runIn (retireBatch catalog plan.batch (plan.unreadable ∪ written.failures)) between =
            (result, after) ∧
          runIn (merge catalog) before =
            match result with
            | .ok retired =>
              (.ok ⟨written.merged, written.locales, plan.unreadable ∪ written.failures, retired⟩,
                after)
            | .error failure => (.error (.store failure), after)) :=
  ⟨fun _ => merge_of_refusal, merge_of_not_refusal⟩

end LocaleCatalog.Merge
