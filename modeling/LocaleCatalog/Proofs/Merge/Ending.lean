import LocaleCatalog.Proofs.Catalog.Contents
import LocaleCatalog.Proofs.Merge.Conservation

/-!
# However a merge ends

A merge may be refused, may fail in some locales, and may fail to retire the batch. In every case

* only files of the catalog are changed (`Merge.changed_of_merge`), and a merge moves along whatever
  the changes of a tree move along (`Merge.moves_merge`);
* each store is what it was, or was written with the entries of a batch that had no problems
  (`Merge.stores_of_merge`);
* the batch is what it was if the merge failed (`Merge.loadBatch_of_merge_error`); otherwise it is
  gone, or holds a part of what it held (`Merge.loadBatch_of_merge`).
-/

namespace LocaleCatalog.Merge

open FileAction (runIn Within Moves Changes)
open Workspace (Changed Kept)

variable {catalog : Catalog} {before between after : Workspace} {batch : Batch}

/-! ## 1. The batch that is merged -/

/-- The batch can be merged: each entry belongs to a translated locale, has a key of the canonical
    store, and has a text. -/
structure Mergeable (catalog : Catalog) (workspace : Workspace) (canonical : Messages)
    (batch : Batch) : Prop where
  loadBatch : catalog.loadBatch workspace = .ok (some batch)
  loadCanonical : catalog.loadStore catalog.locales.canonical workspace = .ok canonical
  noProblems : batch.problems catalog.locales canonical = []

theorem Plan.mergeable {plan : Plan} (h : Plan.make catalog before = .ok plan) :
    ∃ canonical, Mergeable catalog before canonical plan.batch := by
  obtain ⟨canonical, hbatch, hcanonical, hproblems, -⟩ := Plan.make_eq_ok h
  exact ⟨canonical, hbatch, hcanonical, hproblems⟩

/-- The entries of a locale in a batch that can be merged. -/
theorem Mergeable.entries {canonical entries : Messages} {locale : String}
    (h : Mergeable catalog before canonical batch) (hentries : batch[locale]? = some entries) :
    locale ∈ catalog.locales ∧ locale ≠ catalog.locales.canonical ∧
      ∀ key text, entries[key]? = some text → key ∈ canonical ∧ ¬ Text.Blank text := by
  obtain ⟨hlocale, hother, htexts⟩ :=
    Batch.problems_eq_nil_iff.1 h.noProblems locale entries hentries
  refine ⟨hlocale, hother, fun key text hentry => ?_⟩
  obtain ⟨hknown, hsome⟩ := htexts key text hentry
  exact ⟨Std.ExtTreeMap.mem_iff_contains.2 hknown, hsome⟩

theorem Mergeable.not_blank {canonical entries : Messages} {locale : String}
    (h : Mergeable catalog before canonical batch) (hentries : batch[locale]? = some entries)
    (key text : String) (hentry : entries[key]? = some text) : ¬ Text.Blank text :=
  ((h.entries hentries).2.2 key text hentry).2

/-! ## 2. Retiring the batch -/

theorem within_retireBatch {current : Location} (hapart : catalog.Apart current) (batch : Batch)
    (failures : Failures) :
    Within current {catalog.batchPlace current} {catalog.batchPlace current}
      (retireBatch catalog batch failures) := by
  unfold retireBatch
  split
  · exact ((FileAction.within_removeFile hapart.plain_batch).mapError _).bind fun _ =>
      FileAction.moves_pure _
  · exact (within_writeFile hapart.plain_batch _).bind fun _ => FileAction.moves_pure _

/-- A batch that could not be retired is what it was. -/
theorem changed_of_retireBatch_error (hapart : catalog.Apart before.current) {failures : Failures}
    {error : StoreError}
    (h : runIn (retireBatch catalog batch failures) before = (.error error, after)) :
    Changed ∅ {catalog.batchPlace before.current} before after := by
  unfold retireBatch at h
  split at h
  · unfold Catalog.removeBatch at h
    rw [FileAction.run_bind, FileAction.run_mapError] at h
    rcases hremove : runIn (FileAction.removeFile catalog.batch) before with ⟨removed, last⟩
    rw [hremove] at h
    cases removed with
    | ok => cases h
    | error _ =>
      cases h
      rw [FileAction.eq_of_removeFile_error hremove]
      exact .refl _ _ before
  · rw [FileAction.run_bind] at h
    rcases hsave : runIn (catalog.saveBatch (remaining batch failures)) before with ⟨saved, last⟩
    rw [hsave] at h
    cases saved with
    | ok => cases h
    | error _ =>
      cases h
      exact changed_of_writeFile_error hapart.plain_batch hsave

/-- A batch that was there and could be retired was one that the disk accepts to change. -/
theorem accepts_of_retireBatch {failures : Failures} {retired : Bool} {bytes : ByteArray}
    (hread : before.readBytes catalog.batch = .ok bytes)
    (h : runIn (retireBatch catalog batch failures) before = (.ok retired, after)) :
    before.Accepts catalog.batch := by
  unfold retireBatch at h
  split at h
  · obtain ⟨removed, last, hremove, -⟩ := FileAction.run_bind_eq_ok.1 h
    exact FileAction.accepts_of_removeFile hread (FileAction.run_mapError_eq_ok.1 hremove)
  · obtain ⟨⟨⟩, last, hsave, -⟩ := FileAction.run_bind_eq_ok.1 h
    exact accepts_of_writeFile hsave

/-! ## 3. The whole run -/

section Moves

variable {related : Workspace → Workspace → Prop} [Changes related]

theorem moves_writeTargets (targets : List Target) :
    Moves related (writeTargets catalog targets) := by
  intro before
  obtain ⟨merged, failures, after, hrun, hwrites⟩ := writes_of_writeTargets catalog targets before
  rw [hrun]
  exact hwrites.moves

theorem moves_retireBatch (batch : Batch) (failures : Failures) :
    Moves related (retireBatch catalog batch failures) := by
  unfold retireBatch
  split
  · exact catalog.moves_removeBatch.bind fun _ => FileAction.moves_pure _
  · exact (catalog.moves_saveBatch _).bind fun _ => FileAction.moves_pure _

theorem moves_merge (catalog : Catalog) : Moves related (merge catalog) := by
  refine (FileAction.moves_inspect _).bind fun plan => (moves_writeTargets _).bind fun written => ?_
  dsimp only
  split
  · exact FileAction.moves_throw _
  · exact ((moves_retireBatch _ _).mapError _).bind fun _ => FileAction.moves_pure _

end Moves

/-- A merge is refused and changes nothing, or it carries out a plan. Then the batch is retired, or
    is what it was. -/
theorem merge_cases {result : Except Error Report} (hapart : catalog.Apart before.current)
    (h : runIn (merge catalog) before = (result, after)) :
    ((∃ error, result = .error error) ∧ after = before) ∨
    ∃ plan merged unwritten between, Plan.make catalog before = .ok plan ∧
      Writes catalog before plan.targets merged unwritten between ∧
      between.current = before.current ∧
      (((∃ error, result = .error error) ∧
          Changed ∅ {catalog.batchPlace between.current} between after) ∨
        ∃ retired,
          result = .ok ⟨countOf merged, merged, plan.unreadable ∪ unwritten, retired⟩ ∧
          runIn (retireBatch catalog plan.batch (plan.unreadable ∪ unwritten)) between =
            (.ok retired, after)) := by
  cases hplan : Plan.make catalog before with
  | error error =>
    rw [run_merge_of_error hplan] at h
    cases h
    exact .inl ⟨⟨_, rfl⟩, rfl⟩
  | ok plan =>
    obtain ⟨merged, unwritten, between, hwrites, -, hrun⟩ := run_merge hplan
    have hcurrent : between.current = before.current :=
      (hwrites.changed hapart fun _ htarget => mem_locales_of_mem_targets hplan htarget).current
    refine .inr ⟨plan, merged, unwritten, between, rfl, hwrites, hcurrent, ?_⟩
    rw [hrun] at h
    split at h
    · cases h
      exact .inl ⟨⟨_, rfl⟩, .refl _ _ _⟩
    · split at h
      · rename_i retired last hretire
        cases h
        exact .inr ⟨retired, rfl, hretire⟩
      · rename_i failure last hretire
        cases h
        exact .inl ⟨⟨_, rfl⟩, changed_of_retireBatch_error (hcurrent ▸ hapart) hretire⟩

/-- A merge that succeeds has carried out a plan, with the stores first and then the batch. -/
theorem writes_of_merge {report : Report} (hapart : catalog.Apart before.current)
    (h : runIn (merge catalog) before = (.ok report, after)) :
    ∃ plan merged unwritten retired between, Plan.make catalog before = .ok plan ∧
      Writes catalog before plan.targets merged unwritten between ∧
      between.current = before.current ∧
      report = ⟨countOf merged, merged, plan.unreadable ∪ unwritten, retired⟩ ∧
      runIn (retireBatch catalog plan.batch (plan.unreadable ∪ unwritten)) between =
        (.ok retired, after) := by
  rcases merge_cases hapart h with
    ⟨⟨error, hfailed⟩, -⟩ | ⟨plan, merged, unwritten, between, hplan, hwrites, hcurrent, hcases⟩
  · cases hfailed
  · rcases hcases with ⟨⟨error, hfailed⟩, -⟩ | ⟨retired, hdone, hretire⟩
    · cases hfailed
    · cases hdone
      exact ⟨plan, merged, unwritten, retired, between, hplan, hwrites, hcurrent, rfl, hretire⟩

/-- After a merge that carried out a plan, however it ended, only the batch was touched once the
    stores were written. -/
theorem exists_writes {result : Except Error Report} (hapart : catalog.Apart before.current)
    (h : runIn (merge catalog) before = (result, after)) :
    after = before ∨ ∃ plan merged unwritten between, Plan.make catalog before = .ok plan ∧
      Writes catalog before plan.targets merged unwritten between ∧
      Changed {catalog.batchPlace between.current} {catalog.batchPlace between.current}
        between after := by
  rcases merge_cases hapart h with
    ⟨-, hsame⟩ | ⟨plan, merged, unwritten, between, hplan, hwrites, hcurrent, hcases⟩
  · exact .inl hsame
  · refine .inr ⟨plan, merged, unwritten, between, hplan, hwrites, ?_⟩
    have hapart' : catalog.Apart between.current := hcurrent ▸ hapart
    rcases hcases with ⟨-, hkept⟩ | ⟨_, -, hretire⟩
    · exact hkept.mono (Set.empty_subset _) (le_refl _)
    · exact (within_retireBatch hapart' _ _).changed hretire

section Run

variable {result : Except Error Report} (hapart : catalog.Apart before.current)
  (h : runIn (merge catalog) before = (result, after))

include hapart h

/-- Only files of the catalog are changed. -/
theorem changed_of_merge :
    Changed (catalog.places before.current) (catalog.places before.current) before after := by
  rcases exists_writes hapart h with
    rfl | ⟨plan, merged, unwritten, between, hplan, hwrites, hretired⟩
  · exact .refl _ _ _
  · have htargets := targets_subset_locales hplan
    have hmerged := merged_subset_locales hplan hwrites
    refine (changed_of_writes hplan hwrites hapart hretired).mono ?_ ?_
    · exact Set.union_subset (Catalog.storePlaces_subset_places hmerged)
        Catalog.batchPlace_subset_places
    · exact Set.union_subset (Catalog.storePlaces_subset_places htargets)
        Catalog.batchPlace_subset_places

/-- However a merge ends, each store is what it was, or holds the entries of the batch above what it
    held. -/
theorem stores_of_merge {locale : String} (hlocale : locale ∈ catalog.locales.locales) :
    Kept (catalog.storePath locale) before after ∨ ∃ canonical batch entries prior,
      Mergeable catalog before canonical batch ∧ batch[locale]? = some entries ∧
      catalog.loadStore locale before = .ok prior ∧
      after.readBytes (catalog.storePath locale) =
        .ok (applyEntries prior entries).write.toUTF8 := by
  rcases exists_writes hapart h with
    rfl | ⟨plan, merged, unwritten, between, hplan, hwrites, hretired⟩
  · exact .inl (.refl _ _)
  · by_cases hmerged : locale ∈ merged.map (·.1)
    · obtain ⟨⟨_, n⟩, hcounted, rfl⟩ := List.mem_map.1 hmerged
      obtain ⟨entries, hentries, hstored, hsome, -⟩ := (mem_merged_iff hplan hwrites).1 hcounted
      rw [Std.ExtTreeMap.mem_union_iff, not_or] at hstored
      obtain ⟨prior, hprior, htarget⟩ := exists_target hplan hentries hstored.1
      obtain ⟨canonical, hmergeable⟩ := Plan.mergeable hplan
      exact .inr ⟨canonical, plan.batch, entries, prior, hmergeable, hentries, hprior,
        readBytes_of_merged hplan hwrites hapart hretired htarget hsome hstored.2⟩
    · exact .inl (kept_of_not_merged hplan hwrites hapart hretired hlocale hmerged)

end Run

/-- A merge that fails leaves the batch as it was. -/
theorem loadBatch_of_merge_error {error : Error} (hapart : catalog.Apart before.current)
    (h : runIn (merge catalog) before = (.error error, after)) :
    catalog.loadBatch after = catalog.loadBatch before := by
  rcases merge_cases hapart h with
    ⟨-, rfl⟩ | ⟨plan, merged, unwritten, between, hplan, hwrites, hcurrent, hcases⟩
  · rfl
  · obtain ⟨-, hkept⟩ := hcases.resolve_right fun ⟨_, hdone, _⟩ => by cases hdone
    have hlocales : ∀ target ∈ plan.targets, target.locale ∈ catalog.locales.locales :=
      fun _ htarget => mem_locales_of_mem_targets hplan htarget
    obtain ⟨canonical, hmergeable⟩ := Plan.mergeable hplan
    obtain ⟨bytes, hbefore⟩ := exists_readBytes_of_readFile hmergeable.loadBatch
    -- neither the stores nor a batch that could not be retired touch the file of the batch
    have hbetween : between.readBytes catalog.batch = .ok bytes :=
      hapart.readBytes_batch (merged_subset_locales hplan hwrites)
        (hwrites.changed hapart hlocales) hbefore
    have hafter : after.readBytes catalog.batch = .ok bytes :=
      hkept.readBytes_eq hapart.plain_batch (fun _ hplace => absurd hplace (Set.notMem_empty _))
        hbetween
    exact readFile_congr (hafter.trans hbefore.symm)

/-- A merge that succeeds leaves no batch, or a part of the one that there was. -/
theorem loadBatch_of_merge {report : Report} (hapart : catalog.Apart before.current)
    (h : runIn (merge catalog) before = (.ok report, after)) :
    ∃ canonical batch, Mergeable catalog before canonical batch ∧
      (catalog.loadBatch after = .ok none ∨
        catalog.loadBatch after = .ok (some (remaining batch report.failures))) := by
  obtain ⟨plan, merged, unwritten, retired, between, hplan, -, hcurrent, rfl, hretire⟩ :=
    writes_of_merge hapart h
  obtain ⟨canonical, hmergeable⟩ := Plan.mergeable hplan
  refine ⟨canonical, plan.batch, hmergeable, ?_⟩
  rcases (retireBatch_cases (hcurrent ▸ hapart) hretire).2 with ⟨-, -, habsent⟩ | ⟨-, -, hload⟩
  · exact .inl (Catalog.loadBatch_of_notFound habsent)
  · exact .inr hload

end LocaleCatalog.Merge
