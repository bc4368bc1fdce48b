import LocaleCatalog.Proofs.Catalog.Interruption
import LocaleCatalog.Proofs.Merge.Outcome

/-!
# Merges that are run again

A merge that did not get through can be run again, with nothing to be cleaned up in between:

* where it was stopped among its stores, another one leaves what it would have left
  (`Merge.exists_rerun_of_interrupted`);
* where it failed in some locales, and their stores were put in order, another one merges the rest of
  the batch (`Merge.exists_rerun_of_repaired`), and the two together leave what a single merge leaves
  that finds these stores in order from the start (`Merge.sameStores_of_asIf`);
* `Merge.rerunnable_of_merge` puts this together.
-/

namespace LocaleCatalog

open FileAction (runIn)
open Workspace (Changed Kept Heeded NoStricter)

namespace Merge

variable {catalog : Catalog} {before : Disk} {stopped between after : Workspace} {batch : Batch}
  {report : Report} {locale : String} {entries : Messages} {written : List String}

/-! ## 1. A merge that was stopped -/

/-- A merge without failures writes the first targets, then the others. -/
theorem exists_writes_append {first more : List Target} {merged : List (String × Nat)}
    {failures : Failures} {start : Workspace}
    (h : Writes catalog start (first ++ more) merged failures after) (hnone : failures = ∅) :
    ∃ counted stopped counted', runIn (writeTargets catalog first) start =
        (.ok ⟨countOf counted, counted, ∅⟩, stopped) ∧
      Writes catalog start first counted ∅ stopped ∧
      Writes catalog stopped more counted' ∅ after := by
  induction first generalizing start merged with
  | nil => exact ⟨[], start, merged, rfl, .nil start, hnone ▸ h⟩
  | cons target first ih =>
    rw [List.cons_append] at h
    cases h with
    | skip hidle hmore =>
      obtain ⟨counted, stopped, counted', hrun, hfirst, hrest⟩ := ih hmore
      refine ⟨counted, stopped, counted', ?_, .skip hidle hfirst, hrest⟩
      rw [writeTargets_cons, if_pos (List.length_eq_zero_iff.2 hidle)]
      exact hrun
    | stored hsome hsave hmore =>
      obtain ⟨counted, stopped, counted', hrun, hfirst, hrest⟩ := ih hmore
      refine ⟨_, stopped, counted', ?_, .stored hsome hsave hfirst, hrest⟩
      rw [writeTargets_cons, if_neg fun hlength => hsome (List.length_eq_zero_iff.1 hlength),
        FileAction.run_bind, FileAction.run_outcome, hsave]
      dsimp only
      rw [FileAction.run_bind, hrun]
      rfl
    | failed hsome hsave hmore =>
      exact absurd Std.ExtTreeMap.mem_insert_self
        (Std.ExtTreeMap.eq_empty_iff_forall_not_mem.1 hnone _)

section Stopped

variable (hapart : catalog.Apart before.current) (hfull : batch.Full)
  (h : Settled catalog batch report before after) (hnone : report.failures = ∅)

include hapart hfull h hnone

/-- A merge that is stopped when the first targets were written is interrupted. -/
theorem interrupted_take {plan : Plan} {counted counted' : List (String × Nat)} {n : Nat}
    (hplan : Plan.make catalog before = .ok plan) (hbatch : plan.batch = batch)
    (hfirst : Writes catalog before (plan.targets.take n) counted ∅ stopped)
    (hrest : Writes catalog stopped (plan.targets.drop n) counted' ∅ between)
    (hretired : Changed {catalog.batchPlace between.current} {catalog.batchPlace between.current}
      between after) :
    catalog.Interrupted ((plan.targets.take n).map (·.locale)) before after stopped := by
  subst hbatch
  have hlocales : ∀ target ∈ plan.targets, target.locale ∈ catalog.locales.locales :=
    fun _ htarget => mem_locales_of_mem_targets hplan htarget
  have htaken : ∀ target ∈ plan.targets.take n, target.locale ∈ catalog.locales.locales :=
    fun target htarget => hlocales target (List.mem_of_mem_take htarget)
  have hsubset : (plan.targets.take n).map (·.locale) ⊆ catalog.locales.locales :=
    map_locale_subset hplan (List.take_subset n _)
  have hdropped : (plan.targets.drop n).map (·.locale) ⊆ catalog.locales.locales :=
    map_locale_subset hplan (List.drop_subset n _)
  have hnodup : ((plan.targets.take n).map (·.locale)).Nodup := by
    rw [List.map_take]
    exact (nodup_targets hplan).sublist (List.take_sublist _ _)
  have hwritten := hfirst.changed hapart htaken
  -- what is left of the run
  have hcurrent := hwritten.current
  have hlater := hrest.changed (hcurrent ▸ hapart) fun target htarget =>
    hlocales target (List.mem_of_mem_drop htarget)
  rw [hlater.current, hcurrent] at hretired
  rw [hcurrent] at hlater
  have hfollowing := (hlater.mono
    (Catalog.storePlaces_subset_places (List.Subset.trans hrest.sublist.subset hdropped))
    (Catalog.storePlaces_subset_places hdropped)).trans
    (hretired.mono Catalog.batchPlace_subset_places Catalog.batchPlace_subset_places)
  refine hapart.interrupted hsubset (hwritten.mono
    (Catalog.storePlaces_subset hfirst.sublist.subset)
    (Catalog.storePlaces_subset_places hsubset)) hfollowing (fun locale hlocale => ?_)
    (hfirst.moves : Heeded before stopped).noStricter
  obtain ⟨target, htarget, rfl⟩ := List.mem_map.1 hlocale
  obtain ⟨hentries, hload⟩ := (Plan.mem_targets_iff hplan).1 (List.mem_of_mem_take htarget)
  obtain ⟨prior, hprior, hafter⟩ :=
    h.merged _ _ hentries (hnone ▸ Std.ExtTreeMap.not_mem_empty)
  rw [hload] at hprior
  cases hprior
  exact ⟨_, hfirst.readBytes hapart htaken hnodup target htarget
    (filledEntries_ne_nil (hfull _ _ hentries) (Plan.batch_spec hplan hentries).2.2)
    Std.ExtTreeMap.not_mem_empty, hafter⟩

variable (hwritten : ∀ locale ∈ written, locale ∈ batch)
  (hstopped : catalog.Interrupted written before after stopped)

include hwritten hstopped

omit hfull in
/-- Where a merge was interrupted, a store of the batch has its entries already, or is what it
    was. -/
theorem loadStore_of_interrupted (hentries : batch[locale]? = some entries) :
    ∃ prior store, catalog.loadStore locale before = .ok prior ∧
      catalog.loadStore locale stopped = .ok store ∧
      applyEntries store entries = applyEntries prior entries ∧
      after.readBytes (catalog.storePath locale) =
        .ok (applyEntries prior entries).write.toUTF8 := by
  obtain ⟨canonical, hmergeable⟩ := h.mergeable
  have hlocale := (hmergeable.entries hentries).1
  have hsubset : written ⊆ catalog.locales.locales :=
    fun other hother => (h.mem_locales (hwritten other hother)).1
  obtain ⟨prior, hprior, hafter⟩ :=
    h.merged locale entries hentries (hnone ▸ Std.ExtTreeMap.not_mem_empty)
  refine ⟨prior, ?_⟩
  by_cases hmem : locale ∈ written
  · refine ⟨applyEntries prior entries, hprior, ?_,
      applyEntries_self (hmergeable.not_blank hentries), hafter⟩
    have hread : stopped.readBytes (catalog.storePath locale) =
        .ok (applyEntries prior entries).write.toUTF8 :=
      (Workspace.readBytes_congr (hstopped.stores locale hmem)).trans hafter
    exact Catalog.loadStore_of_readFile (readFile_messages hread)
  · refine ⟨prior, hprior, ?_, rfl, hafter⟩
    obtain ⟨found, hfound, -⟩ := bind_eq_ok.1 hprior
    rw [Workspace.readBytes_eq_ok, ← Workspace.entryAt_eq_ok] at hafter
    have hsame := hstopped.entryAt_eq hapart h.changed hsubset
      (Catalog.storePath_mem_paths hlocale)
      (fun other hother => hapart.storePath_ne (hsubset hother) hlocale
        fun heq => hmem (heq ▸ hother)) hfound (.inl ⟨_, hafter⟩)
    exact (Catalog.loadStore_of_entryAt hsame).trans hprior

/-- From wherever a merge was interrupted, another one leaves what the first would have left. -/
theorem exists_rerun_of_interrupted :
    ∃ report' again, runIn (merge catalog) stopped = (.ok report', again) ∧
      report'.failures = ∅ ∧ again.entryAt catalog.batch = .error .notFound ∧
      catalog.SameStores again after := by
  obtain ⟨canonical, hmergeable⟩ := h.mergeable
  have hcurrent := hstopped.changed.current
  have hapart' : catalog.Apart stopped.current := hcurrent ▸ hapart
  have hsubset : written ⊆ catalog.locales.locales :=
    fun other hother => (h.mem_locales (hwritten other hother)).1
  have hkept (locale : String) (hlocale : locale ∈ catalog.locales.locales)
      (hother : locale ∉ batch) : Kept (catalog.storePath locale) before stopped :=
    hstopped.kept hapart hsubset (Catalog.storePath_mem_paths hlocale) fun other hmem =>
      hapart.storePath_ne (hsubset hmem) hlocale fun heq => hother (heq ▸ hwritten other hmem)
  -- the batch and the canonical store are what they were
  have hbatch : catalog.loadBatch stopped = .ok (some batch) := by
    rw [← hmergeable.loadBatch]
    exact readFile_of_entryAt (hstopped.entryAt_eq hapart h.changed hsubset
      Catalog.batch_mem_paths (fun other hother => hapart.storePath_ne_batch (hsubset hother))
      hmergeable.loadBatch (.inr (h.gone hnone)))
  obtain ⟨bytes, hcanonical⟩ := h.exists_readBytes_canonical hfull
  have hidle := hkept _ catalog.locales.canonical_mem fun hmem => (h.mem_locales hmem).2 rfl
  have hready := hmergeable.transfer
    (Workspace.sameBytes_of_eq (hcanonical.trans (hidle.contents bytes hcanonical).symm)) hcanonical
    hbatch fun _ _ hentries => hentries
  -- all stores of the batch can be loaded and written
  have hloads : ∀ locale ∈ batch, ∃ store, catalog.loadStore locale stopped = .ok store := by
    intro locale hmem
    obtain ⟨entries, hentries⟩ := mem_iff_exists_getElem?.1 hmem
    obtain ⟨prior, store, -, hstore, -⟩ :=
      loadStore_of_interrupted hapart h hnone hwritten hstopped hentries
    exact ⟨store, hstore⟩
  have hopen : ∀ locale ∈ batch, stopped.Open (catalog.storePath locale) := by
    intro locale hmem
    obtain ⟨entries, hentries⟩ := mem_iff_exists_getElem?.1 hmem
    obtain ⟨prior, hprior, hafter⟩ :=
      h.merged locale entries hentries (hnone ▸ Std.ExtTreeMap.not_mem_empty)
    obtain ⟨found, hfound, -⟩ := bind_eq_ok.1 hprior
    exact hstopped.isOpen hapart h.changed hsubset h.heeded
      (Catalog.storePath_mem_paths (h.mem_locales hmem).1) hfound
      (h.acceptedStore locale hmem (hnone ▸ Std.ExtTreeMap.not_mem_empty)) hafter
  obtain ⟨report', again, hrun, hnone', hagain⟩ :=
    exists_settled hapart' hready hfull h.asked
      (hstopped.noStricter.accepts h.acceptedBatch) hloads hopen
  refine ⟨report', again, hrun, hnone', hagain.gone hnone', fun locale hlocale => ?_⟩
  by_cases hmem : locale ∈ batch
  · obtain ⟨entries, hentries⟩ := mem_iff_exists_getElem?.1 hmem
    obtain ⟨prior, store, -, hstore, hsame, hafter⟩ :=
      loadStore_of_interrupted hapart h hnone hwritten hstopped hentries
    obtain ⟨prior', hprior', hread⟩ :=
      hagain.merged locale entries hentries (hnone' ▸ Std.ExtTreeMap.not_mem_empty)
    rw [hstore] at hprior'
    cases hprior'
    refine Workspace.sameBytes_of_eq ?_
    rw [hread, hafter, hsame]
  · have hplain := hapart.plain_store hlocale
    have hidle := hagain.kept locale hlocale fun hbatch => absurd hbatch hmem
    have hbefore := (hkept locale hlocale hmem).trans hidle hcurrent
    exact (before.sameBytes_of_kept hplain (hagain.changed.current.trans hcurrent) hbefore).trans
      (before.sameBytes_of_kept hplain h.changed.current
        (h.kept locale hlocale fun hbatch => absurd hbatch hmem)).symm

end Stopped

/-! ## 2. A merge that failed in some locales -/

/-- After a merge the stores of the locales that failed were put in order: they can be loaded and
    written. The other files of the catalog are as the merge left them, and the disk still accepts
    those that it accepted. -/
structure Repaired (catalog : Catalog) (failures : Failures) (after : Workspace) (repaired : Disk) :
    Prop where
  current : repaired.current = after.current
  loads : ∀ locale ∈ failures, ∃ store, catalog.loadStore locale repaired = .ok store
  writable : ∀ locale ∈ failures, catalog.Writable repaired locale
  others : ∀ path ∈ catalog.paths, (∀ locale ∈ failures, catalog.storePath locale ≠ path) →
    Workspace.SameBytes path repaired after ∧ (after.Accepts path → repaired.Accepts path)

/-- As if the stores of the locales that failed had been in order from the start: they say what they
    say once they were repaired, and the other files of the catalog are as they were before the
    merge, or are still not there, and the disk accepts those that it accepted then. -/
structure AsIf (catalog : Catalog) (failures : Failures) (before : Workspace)
    (repaired ideal : Disk) : Prop where
  current : ideal.current = before.current
  loads : ∀ locale ∈ failures,
    catalog.loadStore locale ideal = catalog.loadStore locale repaired
  others : ∀ path ∈ catalog.paths, (∀ locale ∈ failures, catalog.storePath locale ≠ path) →
    Workspace.SameBytes path ideal before ∧ (before.Accepts path → ideal.Accepts path)
  missing : ∀ path ∈ catalog.paths, (∀ locale ∈ failures, catalog.storePath locale ≠ path) →
    before.entryAt path = .error .notFound → ideal.entryAt path = .error .notFound

/-- A file that could be loaded is loaded alike. -/
theorem AsIf.readFile {α : Type} {reader : Json.Reader α} {path : Path} {value : Option α}
    {failures : Failures} {repaired ideal : Disk}
    (h : AsIf catalog failures before repaired ideal) (hpath : path ∈ catalog.paths)
    (hother : ∀ locale ∈ failures, catalog.storePath locale ≠ path)
    (hload : readFile reader path before = .ok value) : readFile reader path ideal = .ok value := by
  rcases entryAt_of_readFile hload with ⟨bytes, hbytes⟩ | hnone
  · rw [← hload]
    exact readFile_congr ((((h.others path hpath hother).1 bytes).2 hbytes).trans hbytes.symm)
  · rw [← hload]
    exact readFile_of_entryAt ((h.missing path hpath hother hnone).trans hnone.symm)

theorem remaining_subset {failures : Failures} (hentries : (remaining batch failures)[locale]? =
    some entries) : locale ∈ failures ∧ batch[locale]? = some entries := by
  rw [getElem?_remaining] at hentries
  split at hentries
  · exact ⟨‹_›, hentries⟩
  · cases hentries

section Failed

variable {repaired ideal : Disk} {again once : Workspace} {report' complete : Report}
  (hapart : catalog.Apart before.current) (hfull : batch.Full)
  (h : Settled catalog batch report before after)
  (hrepaired : Repaired catalog report.failures after repaired)

include hapart h

omit hfull in
/-- The store of a locale that failed is not that of another one, and not the batch. -/
theorem storePath_ne_of_failed (hlocale : locale ∈ catalog.locales.locales)
    (hother : locale ∉ report.failures) :
    ∀ failed ∈ report.failures, catalog.storePath failed ≠ catalog.storePath locale := by
  intro failed hfailed
  exact hapart.storePath_ne (h.mem_locales (h.failed failed hfailed)).1 hlocale
    fun heq => hother (heq ▸ hfailed)

omit hfull in
theorem storePath_ne_batch_of_failed :
    ∀ failed ∈ report.failures, catalog.storePath failed ≠ catalog.batch :=
  fun failed hfailed => hapart.storePath_ne_batch (h.mem_locales (h.failed failed hfailed)).1

include hfull hrepaired

/-- Once the stores that failed are in order, the rest of the batch is merged. -/
theorem exists_rerun_of_repaired (hsome : report.failures ≠ ∅) :
    ∃ report' again, runIn (merge catalog) repaired = (.ok report', again) ∧
      report'.failures = ∅ ∧
      Settled catalog (remaining batch report.failures) report' repaired again := by
  obtain ⟨canonical, hmergeable⟩ := h.mergeable
  have hcurrent : repaired.current = before.current := hrepaired.current.trans h.changed.current
  have hlocale := catalog.locales.canonical_mem
  have hbatch : catalog.loadBatch repaired = .ok (some (remaining batch report.failures)) := by
    obtain ⟨bytes, hbytes⟩ := exists_readBytes_of_readFile (h.rest hsome)
    rw [← h.rest hsome]
    exact readFile_congr ((((hrepaired.others _ Catalog.batch_mem_paths
      (storePath_ne_batch_of_failed hapart h)).1 bytes).2 hbytes).trans hbytes.symm)
  obtain ⟨bytes, hcanonical⟩ := h.exists_readBytes_canonical hfull
  have hidle := h.kept _ hlocale fun hmem => absurd rfl (h.mem_locales hmem).2
  have hsame := (hrepaired.others _ (Catalog.storePath_mem_paths hlocale)
    (storePath_ne_of_failed hapart h hlocale h.canonical_not_failed)).1
  have haccepts := (hrepaired.others _ Catalog.batch_mem_paths
    (storePath_ne_batch_of_failed hapart h)).2 (h.heeded.accepts_iff.2 h.acceptedBatch)
  have hready := hmergeable.transfer
    ((Workspace.sameBytes_of_eq (hcanonical.trans (hidle.contents bytes hcanonical).symm)).trans
      hsame.symm) hcanonical hbatch
    fun _ _ hentries => (remaining_subset hentries).2
  have hfailed : ∀ locale ∈ remaining batch report.failures, locale ∈ report.failures := by
    intro locale hmem
    obtain ⟨entries, hentries⟩ := mem_iff_exists_getElem?.1 hmem
    exact (remaining_subset hentries).1
  refine exists_settled (hcurrent ▸ hapart) hready
    (fun locale entries hentries => hfull locale entries (remaining_subset hentries).2) ?_
    haccepts (fun locale hmem => hrepaired.loads locale (hfailed locale hmem))
    fun locale hmem => (hrepaired.writable locale (hfailed locale hmem)).isOpen
      (hapart.plain_store (h.mem_locales (h.failed locale (hfailed locale hmem))).1)
  -- some locale failed, and its entries are still there
  obtain ⟨locale, hlocale⟩ : ∃ locale, locale ∈ report.failures := by
    by_contra hnone
    exact hsome (Std.ExtTreeMap.eq_empty_iff_forall_not_mem.2 fun locale hmem =>
      hnone ⟨locale, hmem⟩)
  obtain ⟨entries, hentries⟩ := mem_iff_exists_getElem?.1 (h.failed locale hlocale)
  refine ⟨locale, mem_iff_exists_getElem?.2 ⟨entries, ?_⟩⟩
  rw [getElem?_remaining, if_pos hlocale, hentries]

variable (hideal : AsIf catalog report.failures before repaired ideal)

include hideal

omit hfull hrepaired in
/-- As if from the start, the store of a locale that did not fail says what it said. -/
theorem loadStore_of_asIf {store : Messages} (hlocale : locale ∈ catalog.locales.locales)
    (hother : locale ∉ report.failures) (hload : catalog.loadStore locale before = .ok store) :
    catalog.loadStore locale ideal = .ok store := by
  obtain ⟨found, hfound, hstore⟩ := bind_eq_ok.1 hload
  exact bind_eq_ok.2 ⟨found, hideal.readFile (Catalog.storePath_mem_paths hlocale)
    (storePath_ne_of_failed hapart h hlocale hother) hfound, hstore⟩

omit hfull hrepaired in
theorem loadBatch_of_asIf : catalog.loadBatch ideal = .ok (some batch) := by
  obtain ⟨canonical, hmergeable⟩ := h.mergeable
  exact hideal.readFile Catalog.batch_mem_paths (storePath_ne_batch_of_failed hapart h)
    hmergeable.loadBatch

/-- As if from the start, the whole batch is merged, if the stores of its locales can be written. -/
theorem exists_run_of_asIf (hwritable : ∀ locale ∈ batch, catalog.Writable ideal locale) :
    ∃ complete once, runIn (merge catalog) ideal = (.ok complete, once) ∧
      complete.failures = ∅ := by
  obtain ⟨canonical, hmergeable⟩ := h.mergeable
  have hready : Mergeable catalog ideal canonical batch :=
    ⟨loadBatch_of_asIf hapart h hideal, loadStore_of_asIf hapart h hideal
      catalog.locales.canonical_mem h.canonical_not_failed hmergeable.loadCanonical,
      hmergeable.noProblems⟩
  have hloads : ∀ locale ∈ batch, ∃ store, catalog.loadStore locale ideal = .ok store := by
    intro locale hmem
    by_cases hfailed : locale ∈ report.failures
    · rw [hideal.loads locale hfailed]
      exact hrepaired.loads locale hfailed
    · obtain ⟨entries, hentries⟩ := mem_iff_exists_getElem?.1 hmem
      obtain ⟨prior, hprior, -⟩ := h.merged locale entries hentries hfailed
      exact ⟨prior, loadStore_of_asIf hapart h hideal (h.mem_locales hmem).1 hfailed hprior⟩
  have haccepts := (hideal.others _ Catalog.batch_mem_paths
    (storePath_ne_batch_of_failed hapart h)).2 h.acceptedBatch
  obtain ⟨complete, once, hrun, hnone, -⟩ := exists_settled (hideal.current ▸ hapart) hready hfull
    h.asked haccepts hloads fun locale hmem =>
      (hwritable locale hmem).isOpen (hapart.plain_store (h.mem_locales hmem).1)
  exact ⟨complete, once, hrun, hnone⟩

omit hfull in
/-- The two merges together leave what the one merge leaves. -/
theorem sameStores_of_asIf
    (hagain : Settled catalog (remaining batch report.failures) report' repaired again)
    (hnone : report'.failures = ∅) (honce : Settled catalog batch complete ideal once)
    (hnone' : complete.failures = ∅) : catalog.SameStores again once := by
  have hnotfailed {failures : Failures} (heq : failures = ∅) (locale : String) :
      locale ∉ failures := heq ▸ Std.ExtTreeMap.not_mem_empty
  have hcurrent : repaired.current = before.current := hrepaired.current.trans h.changed.current
  intro locale hlocale
  have hplain := hapart.plain_store hlocale
  by_cases hfailed : locale ∈ report.failures
  · -- both have put the entries into the store that was repaired
    obtain ⟨entries, hentries⟩ := mem_iff_exists_getElem?.1 (h.failed locale hfailed)
    have hrest : (remaining batch report.failures)[locale]? = some entries := by
      rw [getElem?_remaining, if_pos hfailed, hentries]
    obtain ⟨prior, hprior, hread⟩ := hagain.merged locale entries hrest (hnotfailed hnone locale)
    obtain ⟨prior', hprior', hread'⟩ :=
      honce.merged locale entries hentries (hnotfailed hnone' locale)
    rw [hideal.loads locale hfailed, hprior] at hprior'
    cases hprior'
    exact Workspace.sameBytes_of_eq (hread.trans hread'.symm)
  · have hleft : locale ∉ remaining batch report.failures := by
      intro hmem
      obtain ⟨entries, hentries⟩ := mem_iff_exists_getElem?.1 hmem
      exact hfailed (remaining_subset hentries).1
    have hidle := hagain.kept locale hlocale fun hmem => absurd hmem hleft
    have hpath := Catalog.storePath_mem_paths hlocale
    have hne := storePath_ne_of_failed hapart h hlocale hfailed
    have hsecond : Workspace.SameBytes (catalog.storePath locale) again after :=
      (repaired.sameBytes_of_kept hplain hagain.changed.current hidle).trans
        (hrepaired.others _ hpath hne).1
    by_cases hmem : locale ∈ batch
    · -- the first merge has put them into the store, and the second has left it alone
      obtain ⟨entries, hentries⟩ := mem_iff_exists_getElem?.1 hmem
      obtain ⟨prior, hprior, hread⟩ := h.merged locale entries hentries hfailed
      obtain ⟨prior', hprior', hread'⟩ :=
        honce.merged locale entries hentries (hnotfailed hnone' locale)
      rw [loadStore_of_asIf hapart h hideal hlocale hfailed hprior] at hprior'
      cases hprior'
      exact hsecond.trans (Workspace.sameBytes_of_eq (hread.trans hread'.symm))
    · -- no merge has touched the store
      have hfirst := before.sameBytes_of_kept hplain h.changed.current
        (h.kept locale hlocale fun hbatch => absurd hbatch hmem)
      have hsingle := ideal.sameBytes_of_kept hplain honce.changed.current
        (honce.kept locale hlocale fun hbatch => absurd hbatch hmem)
      exact (hsecond.trans hfirst).trans
        (hsingle.trans (hideal.others _ hpath hne).1).symm

end Failed

/-! ## 3. Stopped or failed, and run again -/

/-- A merge can be run again, whether it was stopped or failed in some locales. -/
structure Rerunnable (catalog : Catalog) (batch : Batch) (report : Report)
    (before : Disk) (after : Workspace) : Prop where
  /-- A run without failures first writes the stores of any number of locales, in the order of the
      batch. Stopped there, it has written these and is interrupted; the other files are what they
      were. -/
  stops : report.failures = ∅ → ∀ n, ∃ plan done stopped, Plan.make catalog before = .ok plan ∧
    runIn (writeTargets catalog (plan.targets.take n)) before = (.ok done, stopped) ∧
    done.failures = ∅ ∧ (∀ target ∈ plan.targets, target.locale ∈ batch) ∧
    catalog.Interrupted ((plan.targets.take n).map (·.locale)) before after stopped ∧
    ∀ path ∈ catalog.paths, (∀ target ∈ plan.targets.take n,
      catalog.storePath target.locale ≠ path) → Workspace.SameBytes path stopped before
  /-- From wherever it was interrupted, another run leaves what it would have left. -/
  resumes : report.failures = ∅ → ∀ (written : List String) (stopped : Workspace),
    (∀ locale ∈ written, locale ∈ batch) → catalog.Interrupted written before after stopped →
      ∃ report' again, runIn (merge catalog) stopped = (.ok report', again) ∧
        report'.failures = ∅ ∧ again.entryAt catalog.batch = .error .notFound ∧
        catalog.SameStores again after
  /-- If some locales failed and their stores were put in order, another run leaves what one run
      leaves that finds these stores so from the start. -/
  retries : report.failures ≠ ∅ → ∀ repaired, Repaired catalog report.failures after repaired →
    ∃ report' again, runIn (merge catalog) repaired = (.ok report', again) ∧
      report'.failures = ∅ ∧ again.entryAt catalog.batch = .error .notFound ∧
      ∀ ideal, AsIf catalog report.failures before repaired ideal →
        ((∀ locale ∈ batch, catalog.Writable ideal locale) → ∃ complete once,
          runIn (merge catalog) ideal = (.ok complete, once) ∧ complete.failures = ∅) ∧
        ∀ (complete : Report) (once : Workspace),
          runIn (merge catalog) ideal = (.ok complete, once) → complete.failures = ∅ →
            catalog.SameStores again once

end Merge

/-! ## 4. Examples -/

instance (batch : Batch) : Decidable batch.Full :=
  decidable_of_iff (∀ entry ∈ batch.toList, entry.2 ≠ ∅)
    ⟨fun h _ _ hentries => h _ (Std.ExtTreeMap.mem_toList_iff_getElem?_eq_some.2 hentries),
      fun h _ hentry => h _ _ (Std.ExtTreeMap.mem_toList_iff_getElem?_eq_some.1 hentry)⟩

theorem Catalog.exists_full_of_any (catalog : Catalog) (workspace : Workspace)
    (h : ((catalog.loadBatch workspace).toOption.join.any fun batch => decide batch.Full) = true) :
    ∃ batch, catalog.loadBatch workspace = .ok (some batch) ∧ batch.Full := by
  cases hload : catalog.loadBatch workspace with
  | error failure =>
    rw [hload] at h
    cases h
  | ok found =>
    rw [hload] at h
    cases found with
    | none => cases h
    | some batch => exact ⟨batch, rfl, of_decide_eq_true h⟩

/-- A disk that refuses to change a store that can be read. -/
def Disk.refusing : Disk where
  toWorkspace := .refusing
  wellFormed := by decide +kernel

/-- What the store says once it was put in order. -/
def Messages.mended : Messages := .ofEntries [("a", ""), ("b", "C")]

/-- After a merge the store was made writable, with other contents. -/
def Disk.mended : Disk where
  tree := {
    entries := (runIn (Merge.merge .trio) .refusing).2.tree.entries.insert
      ["p", "locales", "de.json"] (.file Messages.mended.write.toUTF8)
    refusals := fun _ => none }
  current := ["p"]
  wellFormed := by decide +kernel

/-- The store was in order from the start. -/
def Disk.whole : Disk where
  toWorkspace := .trio Messages.mended.write.toUTF8 none
  wellFormed := by decide +kernel

theorem Catalog.loadStore_mended : Catalog.trio.loadStore "de" Disk.mended = .ok .mended :=
  loadStore_of_readFile (readFile_messages (by decide +kernel))

theorem Catalog.loadStore_whole : Catalog.trio.loadStore "de" Disk.whole = .ok .mended :=
  loadStore_of_readFile (readFile_messages (by decide +kernel))

namespace Merge

variable {failures : Failures} (hkeys : failures.keys = ["de"])

include hkeys

theorem eq_of_keys {locale : String} (h : locale ∈ failures) : locale = "de" := by
  rw [← Std.ExtTreeMap.mem_keys, hkeys] at h
  exact List.mem_singleton.1 h

theorem ne_of_keys {path : Path}
    (h : ∀ locale ∈ failures, Catalog.trio.storePath locale ≠ path) :
    Catalog.trio.storePath "de" ≠ path := by
  refine h "de" ?_
  rw [← Std.ExtTreeMap.mem_keys, hkeys]
  exact List.mem_cons_self

theorem repaired_mended : Repaired .trio failures (runIn (merge .trio) .refusing).2 .mended := by
  have hothers : ∀ path ∈ Catalog.trio.paths, Catalog.trio.storePath "de" ≠ path →
      Disk.mended.readBytes path = (runIn (merge .trio) .refusing).2.readBytes path := by
    decide +kernel
  constructor
  case current => decide +kernel
  case loads =>
    intro locale hmem
    rw [eq_of_keys hkeys hmem]
    exact ⟨_, Catalog.loadStore_mended⟩
  case writable =>
    intro locale hmem
    rw [eq_of_keys hkeys hmem]
    obtain ⟨⟨⟩, hsave⟩ := FileAction.exists_of_isOk (Catalog.trio.saveStore "de" ∅) Disk.mended
      (by decide +kernel)
    exact ⟨∅, _, hsave⟩
  case others =>
    intro path hpath hother
    exact ⟨Workspace.sameBytes_of_eq (hothers path hpath (ne_of_keys hkeys hother)), fun _ => rfl⟩

theorem asIf_whole : AsIf .trio failures .refusing .mended .whole := by
  have hothers : ∀ path ∈ Catalog.trio.paths, Catalog.trio.storePath "de" ≠ path →
      Disk.whole.readBytes path = Workspace.refusing.readBytes path ∧
        (Workspace.refusing.readBytes path).isOk = true ∧ Disk.whole.Accepts path := by
    decide +kernel
  constructor
  case current => decide +kernel
  case loads =>
    intro locale hmem
    rw [eq_of_keys hkeys hmem, Catalog.loadStore_mended, Catalog.loadStore_whole]
  case others =>
    intro path hpath hother
    obtain ⟨hsame, -, haccepts⟩ := hothers path hpath (ne_of_keys hkeys hother)
    exact ⟨Workspace.sameBytes_of_eq hsame, fun _ => haccepts⟩
  case missing =>
    intro path hpath hother hnone
    have hthere := (hothers path hpath (ne_of_keys hkeys hother)).2.1
    unfold Workspace.readBytes at hthere
    rw [hnone] at hthere
    cases hthere

omit hkeys

end Merge

end LocaleCatalog
