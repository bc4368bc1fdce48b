import LocaleCatalog.Proofs.Catalog.Open
import LocaleCatalog.Proofs.Merge.Ending

/-!
# Merges that are complete

A merge of a batch that may be merged can only fail in single locales:

* `Merge.Writes.failures_eq_empty`: where nothing is in the way of a store, it is written;
* `Merge.exists_run_merge_of_open`: so the merge succeeds for all locales, if the stores of the batch
  can be loaded, nothing is in their way, and the disk lets the batch be taken away;
* `Merge.exists_run_merge`: this is so where the stores stand already and the disk accepts all files.
  Each store has the entries of the batch above what it held, and the batch is gone.
-/

namespace LocaleCatalog.Merge

open FileAction (runIn)
open Workspace (Changed Kept Heeded)

variable {catalog : Catalog} {before between after : Workspace} {targets : List Target}
  {merged : List (String × Nat)} {failures unwritten : Failures} {batch : Batch}
  {canonical : Messages} {stores : String → Messages}

/-! ## 1. Writing -/

/-- Where nothing is in the way of the stores, every target is written. -/
theorem Writes.failures_eq_empty (h : Writes catalog before targets merged failures after)
    (hapart : catalog.Apart before.current)
    (hlocales : ∀ target ∈ targets, target.locale ∈ catalog.locales.locales)
    (hnodup : (targets.map (·.locale)).Nodup)
    (hopen : ∀ target ∈ targets, before.Open (catalog.storePath target.locale)) : failures = ∅ := by
  induction h with
  | nil => rfl
  | skip _ _ ih =>
    rw [List.map_cons, List.nodup_cons] at hnodup
    exact ih hapart (fun target htarget => hlocales target (List.mem_cons_of_mem _ htarget))
      hnodup.2 fun target htarget => hopen target (List.mem_cons_of_mem _ htarget)
  | @stored before between _ target _ _ _ _ hsave _ ih =>
    rw [List.map_cons, List.nodup_cons] at hnodup
    have hfirst := hlocales target List.mem_cons_self
    have hchanged := (Target.within_save hapart hfirst).changed hsave
    have hheeded : Heeded before between := (catalog.moves_saveStore _ _).of_run hsave
    have hmore := fun other hother => hlocales other (List.mem_cons_of_mem _ hother)
    refine ih (hchanged.current ▸ hapart) hmore hnodup.2 fun other hother => ?_
    -- the store that was written is another one
    have hne : target.locale ≠ other.locale := fun heq =>
      hnodup.1 (heq ▸ List.mem_map_of_mem hother)
    refine (hopen other (List.mem_cons_of_mem _ hother)).of_changed hchanged
      hheeded.noStricter ?_ ?_
    · rintro _ rfl
      exact hapart.store_store hfirst (hmore other hother) hne
    · rintro _ rfl hon
      exact absurd hon (hapart.store_store (hmore other hother) hfirst hne.symm)
  | failed _ hsave _ _ =>
    have hfirst := hlocales _ List.mem_cons_self
    obtain ⟨last, hrun⟩ := exists_run_writeFile_of_open (hapart.plain_store hfirst)
      (hopen _ List.mem_cons_self) _
    rw [Target.save, Catalog.saveStore, hrun] at hsave
    cases hsave

/-! ## 2. The whole run -/

/-- Where the stores of the batch can be loaded, no locale is set aside. -/
theorem unreadable_eq_empty {plan : Plan} (hplan : Plan.make catalog before = .ok plan)
    (hloads : ∀ locale ∈ plan.batch, ∃ store, catalog.loadStore locale before = .ok store) :
    plan.unreadable = ∅ := by
  refine Std.ExtTreeMap.eq_empty_iff_forall_not_mem.2 fun locale hmem => ?_
  obtain ⟨hbatch, error, hfailed⟩ := (Plan.mem_unreadable_iff hplan).1 hmem
  obtain ⟨store, hload⟩ := hloads locale hbatch
  rw [hload] at hfailed
  cases hfailed

/-- A store without entries stays what it is. -/
theorem applyEntries_empty (store : Messages) : applyEntries store ∅ = store := by
  refine Std.ExtTreeMap.ext_getElem? fun key => ?_
  have hnone (key text : String) (hentry : (∅ : Messages)[key]? = some text) :
      ¬ Text.Blank text := by
    rw [Std.ExtTreeMap.getElem?_empty] at hentry
    cases hentry
  rw [getElem?_applyEntries hnone, Std.ExtTreeMap.getElem?_empty, Option.none_or]

/-- A batch that can be read can be taken away, if the disk accepts that. -/
theorem exists_run_retireBatch (hapart : catalog.Apart before.current) {bytes : ByteArray}
    (hread : before.readBytes catalog.batch = .ok bytes) (haccepts : before.Accepts catalog.batch) :
    ∃ after, runIn (retireBatch catalog batch ∅) before = (.ok true, after) := by
  obtain ⟨after, hremove⟩ :=
    FileAction.run_removeFile_of_readBytes hapart.plain_batch hread haccepts
  refine ⟨after, ?_⟩
  unfold retireBatch Catalog.removeBatch
  rw [if_pos Std.ExtTreeMap.isEmpty_empty, FileAction.run_bind, FileAction.run_mapError, hremove]
  rfl

section Stores

variable {plan : Plan} (hapart : catalog.Apart before.current)
  (hplan : Plan.make catalog before = .ok plan)
  (hwrites : Writes catalog before plan.targets merged unwritten between)
  (hretired : Changed {catalog.batchPlace between.current} {catalog.batchPlace between.current}
    between after)
  (hstores : catalog.HoldsStores before stores) (hnone : plan.unreadable ∪ unwritten = ∅)

include hapart hplan hwrites hretired hstores hnone

/-- Without failures, each store holds its entries of the batch above what it held. -/
theorem holdsStores_of_writes : catalog.HoldsStores after fun locale =>
    applyEntries (stores locale) (plan.batch[locale]?.getD ∅) := by
  intro locale hlocale
  have hstored : locale ∉ plan.unreadable ∪ unwritten := hnone ▸ Std.ExtTreeMap.not_mem_empty
  show after.readBytes (catalog.storePath locale) =
    .ok (applyEntries (stores locale) (plan.batch[locale]?.getD ∅)).write.toUTF8
  by_cases hempty : plan.batch[locale]?.getD ∅ = ∅
  · rw [hempty, applyEntries_empty]
    refine (kept_of_no_entries hplan hwrites hapart hretired hlocale ?_).contents _
      (hstores locale hlocale)
    intro entries hentries hsome
    rw [hentries] at hempty
    exact absurd hempty hsome
  · cases hentries : plan.batch[locale]? with
    | none =>
      rw [hentries] at hempty
      exact absurd rfl hempty
    | some entries =>
      rw [hentries] at hempty
      rw [Std.ExtTreeMap.mem_union_iff, not_or] at hstored
      obtain ⟨prior, hprior, htarget⟩ := exists_target hplan hentries hstored.1
      rw [hstores.loadStore hlocale] at hprior
      cases hprior
      exact readBytes_of_merged hplan hwrites hapart hretired htarget hempty hstored.2

end Stores

/-- A batch that may be merged and has an entry is merged as a whole, where its stores can be loaded,
    nothing is in their way, and the disk lets the batch be taken away. -/
theorem exists_run_merge_of_open (hapart : catalog.Apart before.current)
    (hmergeable : Mergeable catalog before canonical batch)
    (haccepts : before.Accepts catalog.batch)
    (hloads : ∀ locale ∈ batch, ∃ store, catalog.loadStore locale before = .ok store)
    (hopen : ∀ locale ∈ batch, before.Open (catalog.storePath locale))
    (hentry : ∃ (locale : String) (entries : Messages),
      batch[locale]? = some entries ∧ entries ≠ ∅) :
    ∃ report after, runIn (merge catalog) before = (.ok report, after) ∧ report.failures = ∅ := by
  have hmem {locale : String} {entries : Messages} (hentries : batch[locale]? = some entries) :
      locale ∈ batch := mem_iff_exists_getElem?.2 ⟨entries, hentries⟩
  have hsound : ∀ entry ∈ batch.toList, ¬ MalformedStore catalog before entry.1 := by
    rintro ⟨locale, entries⟩ hlisted ⟨path, malformation, hfailed⟩
    obtain ⟨store, hload⟩ :=
      hloads locale (hmem (Std.ExtTreeMap.mem_toList_iff_getElem?_eq_some.1 hlisted))
    rw [hload] at hfailed
    cases hfailed
  obtain ⟨plan, hplan, rfl⟩ :=
    Plan.exists_make_eq hmergeable.loadBatch hmergeable.loadCanonical hmergeable.noProblems hsound
  obtain ⟨merged, unwritten, between, hwrites, -, hrun⟩ := run_merge hplan
  have hlocales : ∀ target ∈ plan.targets, target.locale ∈ catalog.locales.locales :=
    fun _ htarget => mem_locales_of_mem_targets hplan htarget
  have hnone : plan.unreadable ∪ unwritten = ∅ := by
    rw [unreadable_eq_empty hplan hloads, hwrites.failures_eq_empty hapart hlocales
      (nodup_targets hplan) fun target htarget =>
        hopen _ (hmem ((Plan.mem_targets_iff hplan).1 htarget).1)]
    rfl
  have hsome : merged ≠ [] := by
    rintro rfl
    obtain ⟨locale, entries, hentries, hne⟩ := hentry
    have hcounted := (mem_merged_iff hplan hwrites (n := entries.size)).2
      ⟨entries, hentries, hnone ▸ Std.ExtTreeMap.not_mem_empty, hne, rfl⟩
    exact List.not_mem_nil hcounted
  have hchanged := hwrites.changed hapart hlocales
  -- the batch is still there to be taken away
  obtain ⟨bytes, hread⟩ := exists_readBytes_of_readFile hmergeable.loadBatch
  have hread' : between.readBytes catalog.batch = .ok bytes :=
    hapart.readBytes_batch (merged_subset_locales hplan hwrites) hchanged hread
  have hheeded : Heeded before between := hwrites.moves
  obtain ⟨after, hretire⟩ := exists_run_retireBatch (hchanged.current ▸ hapart) hread'
    (hheeded.accepts_iff.2 haccepts)
  rw [hnone, hretire, if_neg fun hnothing => hsome hnothing.1] at hrun
  exact ⟨_, after, hrun, rfl⟩

/-- A batch that may be merged and has an entry is merged as a whole, where all stores stand and the
    disk accepts the files of the catalog. -/
theorem exists_run_merge (hapart : catalog.Apart before.current)
    (hmergeable : Mergeable catalog before canonical batch) (haccepted : catalog.Accepted before)
    (hstores : catalog.HoldsStores before stores)
    (hentry : ∃ (locale : String) (entries : Messages),
      batch[locale]? = some entries ∧ entries ≠ ∅) :
    ∃ report after, runIn (merge catalog) before = (.ok report, after) ∧ report.failures = ∅ ∧
      catalog.Holds after
        ⟨fun locale => applyEntries (stores locale) (batch[locale]?.getD ∅), none⟩ := by
  have hlocale : ∀ locale ∈ batch, locale ∈ catalog.locales.locales := by
    intro locale hmem
    obtain ⟨entries, hentries⟩ := mem_iff_exists_getElem?.1 hmem
    exact (hmergeable.entries hentries).1
  obtain ⟨report, after, hrun, hnone⟩ := exists_run_merge_of_open hapart hmergeable haccepted.batch
    (fun locale hmem => ⟨_, hstores.loadStore (hlocale locale hmem)⟩)
    (fun locale hmem => Workspace.Open.of_readBytes (hapart.plain_store (hlocale locale hmem))
      (hstores locale (hlocale locale hmem)) (haccepted.store (hlocale locale hmem))) hentry
  refine ⟨report, after, hrun, hnone, ?_⟩
  obtain ⟨plan, merged, unwritten, retired, between, hplan, hwrites, hcurrent, rfl, hretire⟩ :=
    writes_of_merge hapart hrun
  have hbatch : plan.batch = batch := by
    obtain ⟨-, hload, -⟩ := Plan.make_eq_ok hplan
    rw [hmergeable.loadBatch] at hload
    cases hload
    rfl
  subst hbatch
  obtain ⟨hretired, ⟨-, -, habsent⟩ | ⟨hne, -⟩⟩ :=
    retireBatch_cases (hcurrent ▸ hapart) hretire
  · exact ⟨holdsStores_of_writes hapart hplan hwrites hretired hstores hnone, habsent⟩
  · exact absurd hnone hne

end LocaleCatalog.Merge
