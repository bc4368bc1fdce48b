import LocaleCatalog.Proofs.Merge.Write

/-!
# A merge loses nothing

`Merge.Conserved` says what a merge that succeeds leaves behind: every locale of the batch either
has its entries in its store, with all that the store held besides, or has failed, and then its
store is what it was and the batch still holds its entries. `Merge.conserved_of_merge` proves it for
every batch and every mixture of stores that can and cannot be read and written. The stores and the
batch must not get into each other's way (`Catalog.Apart`).
-/

namespace LocaleCatalog.Merge

open FileAction (runIn)
open Workspace (Changed Kept)

/-! ## 1. What is asked of the result -/

/-- The files of a catalog and the report, after a merge of the batch. -/
structure Conserved (catalog : Catalog) (batch : Batch) (report : Report)
    (before after : Workspace) : Prop where
  /-- A locale that did not fail has its entries, and besides them what its store held. A store
      that was not there is made for entries alone. -/
  merged : ∀ (locale : String) (entries : Messages), batch[locale]? = some entries →
    locale ∉ report.failures → ∃ prior, catalog.loadStore locale before = .ok prior ∧
      ((∃ store, catalog.loadStore locale after = .ok store ∧
          ∀ key : String, store[key]? = entries[key]?.or prior[key]?) ∨
        (entries = ∅ ∧ before.readText (catalog.storePath locale) = .error .notFound ∧
          Kept (catalog.storePath locale) before after))
  /-- A locale that failed has its store as it was, and its entries in the batch. -/
  failed : ∀ (locale : String) (entries : Messages), batch[locale]? = some entries →
    locale ∈ report.failures → Kept (catalog.storePath locale) before after ∧
      ∃ rest, catalog.loadBatch after = .ok (some rest) ∧ rest[locale]? = some entries
  /-- The batch is gone just if no locale failed, and the report says which it is. -/
  gone : after.entryAt catalog.batch = .error .notFound ↔ report.failures = ∅
  retired : report.batchRetired = true ↔ report.failures = ∅
  /-- A batch that is not gone holds the locales that failed, and no others. -/
  remaining : report.failures ≠ ∅ → ∃ rest, catalog.loadBatch after = .ok (some rest) ∧
    ∀ locale, locale ∈ rest ↔ locale ∈ report.failures
  canonical : Kept (catalog.storePath catalog.locales.canonical) before after
  others : ∀ locale ∈ catalog.locales, locale ∉ batch →
    Kept (catalog.storePath locale) before after
  /-- No other file stands anywhere that did not, and none is gone or has other contents. -/
  elsewhere : ∀ place, place ≠ catalog.batchPlace before.current →
    place ∉ catalog.storePlaces before.current (report.locales.map (·.1)) → ∀ bytes,
      after.tree.find? place = some (.file bytes) ↔ before.tree.find? place = some (.file bytes)
  ordered : (report.locales.map (·.1)).Pairwise (· < ·)
  /-- Reported are the locales that did not fail and had entries, with the number of these. -/
  counted : ∀ (locale : String) (n : Nat), (locale, n) ∈ report.locales ↔
    ∃ entries, batch[locale]? = some entries ∧ locale ∉ report.failures ∧ entries ≠ ∅ ∧
      n = entries.size
  total : report.merged = (report.locales.map (·.2)).sum

/-! ## 2. The batch -/

variable {catalog : Catalog} {before after : Workspace}

/-- The entries that remain are those of the locales that failed. -/
theorem getElem?_remaining (batch : Batch) (failures : Failures) (locale : String) :
    (remaining batch failures)[locale]? =
      if locale ∈ failures then batch[locale]? else none := by
  unfold remaining
  rw [Std.ExtTreeMap.getElem?_filter']
  cases batch[locale]? with
  | none => simp
  | some entries =>
    rw [Option.filter_some]
    exact if_congr Std.ExtTreeMap.mem_iff_contains.symm rfl rfl

/-- The batch is taken away, or rewritten, as there are failures or none. -/
theorem retireBatch_cases (hapart : catalog.Apart before.current) {batch : Batch}
    {failures : Failures} {retired : Bool}
    (h : runIn (retireBatch catalog batch failures) before = (.ok retired, after)) :
    Changed {catalog.batchPlace before.current} {catalog.batchPlace before.current} before after ∧
      ((failures = ∅ ∧ retired = true ∧ after.entryAt catalog.batch = .error .notFound) ∨
        (failures ≠ ∅ ∧ retired = false ∧
          catalog.loadBatch after = .ok (some (remaining batch failures)))) := by
  unfold retireBatch at h
  split at h
  · rename_i hempty
    obtain ⟨removed, between, hremove, hdone⟩ := FileAction.run_bind_eq_ok.1 h
    cases hdone
    obtain ⟨hchanged, habsent⟩ := Catalog.removeBatch_spec hapart hremove
    exact ⟨hchanged, .inl ⟨Std.ExtTreeMap.isEmpty_iff.1 hempty, rfl, habsent⟩⟩
  · rename_i hsome
    obtain ⟨⟨⟩, between, hsave, hdone⟩ := FileAction.run_bind_eq_ok.1 h
    cases hdone
    obtain ⟨hchanged, hread⟩ := Catalog.saveBatch_spec hapart hsave
    exact ⟨hchanged, .inr ⟨fun heq => hsome (Std.ExtTreeMap.isEmpty_iff.2 heq), rfl,
      readFile_batch hread⟩⟩

/-! ## 3. The stores -/

section Run

variable {plan : Plan} {merged : List (String × Nat)} {unwritten : Failures}
  {between : Workspace} (hplan : Plan.make catalog before = .ok plan)
  (hwrites : Writes catalog before plan.targets merged unwritten between)

include hplan

theorem mem_locales_of_mem_targets {target : Target} (h : target ∈ plan.targets) :
    target.locale ∈ catalog.locales.locales :=
  (Plan.batch_spec hplan ((Plan.mem_targets_iff hplan).1 h).1).1

theorem map_locale_subset {targets : List Target} (h : targets ⊆ plan.targets) :
    targets.map (·.locale) ⊆ catalog.locales.locales := by
  intro locale hlocale
  obtain ⟨target, htarget, rfl⟩ := List.mem_map.1 hlocale
  exact mem_locales_of_mem_targets hplan (h htarget)

theorem targets_subset_locales : plan.targets.map (·.locale) ⊆ catalog.locales.locales :=
  map_locale_subset hplan (List.Subset.refl _)

theorem ordered_targets : (plan.targets.map (·.locale)).Pairwise (· < ·) :=
  (ordered_toList plan.batch).sublist (Plan.targets_sublist hplan)

theorem nodup_targets : (plan.targets.map (·.locale)).Nodup :=
  (ordered_targets hplan).imp fun hlt heq => absurd (heq ▸ hlt) (String.lt_irrefl _)

/-- A locale of the batch whose store could be read was a target. -/
theorem exists_target {locale : String} {entries : Messages}
    (hentries : plan.batch[locale]? = some entries) (hread : locale ∉ plan.unreadable) :
    ∃ prior, catalog.loadStore locale before = .ok prior ∧
      ⟨locale, entries, prior⟩ ∈ plan.targets := by
  rw [Plan.mem_unreadable_iff hplan] at hread
  cases hload : catalog.loadStore locale before with
  | error failure =>
    exact absurd ⟨mem_iff_exists_getElem?.2 ⟨entries, hentries⟩, failure, hload⟩ hread
  | ok prior => exact ⟨prior, rfl, (Plan.mem_targets_iff hplan).2 ⟨hentries, hload⟩⟩

include hwrites

/-- What was merged are locales of the catalog. -/
theorem merged_subset_locales : merged.map (·.1) ⊆ catalog.locales.locales :=
  List.Subset.trans hwrites.sublist.subset (targets_subset_locales hplan)

/-- Only locales of the batch can fail. -/
theorem mem_batch_of_mem_failures {locale : String}
    (h : locale ∈ plan.unreadable ∪ unwritten) : locale ∈ plan.batch := by
  rcases Std.ExtTreeMap.mem_union_iff.1 h with hunread | hfailed
  · exact ((Plan.mem_unreadable_iff hplan).1 hunread).1
  · obtain ⟨target, htarget, rfl, -⟩ := hwrites.exists_of_mem_failures hfailed
    exact mem_iff_exists_getElem?.2 ⟨_, ((Plan.mem_targets_iff hplan).1 htarget).1⟩

/-- What was merged are the locales of the batch that did not fail and had entries. -/
theorem mem_merged_iff {locale : String} {n : Nat} : (locale, n) ∈ merged ↔
    ∃ entries, plan.batch[locale]? = some entries ∧ locale ∉ plan.unreadable ∪ unwritten ∧
      entries ≠ ∅ ∧ n = entries.size := by
  have hfilled {locale : String} {entries : Messages}
      (hentries : plan.batch[locale]? = some entries) : filledEntries entries = entries.toList :=
    filledEntries_eq (Plan.batch_spec hplan hentries).2.2
  rw [hwrites.mem_merged_iff (nodup_targets hplan)]
  constructor
  · rintro ⟨target, htarget, rfl, hsome, rfl, hkept⟩
    obtain ⟨hentries, hload⟩ := (Plan.mem_targets_iff hplan).1 htarget
    rw [hfilled hentries] at hsome ⊢
    refine ⟨target.entries, hentries, fun hfailed => ?_, fun hnone => hsome ?_,
      Std.ExtTreeMap.length_toList⟩
    · rcases Std.ExtTreeMap.mem_union_iff.1 hfailed with hunread | hfailed
      · obtain ⟨-, failure, herror⟩ := (Plan.mem_unreadable_iff hplan).1 hunread
        rw [hload] at herror
        cases herror
      · exact hkept hfailed
    · exact Std.ExtTreeMap.toList_eq_nil_iff.2 hnone
  · rintro ⟨entries, hentries, hkept, hsome, rfl⟩
    rw [Std.ExtTreeMap.mem_union_iff, not_or] at hkept
    obtain ⟨prior, -, htarget⟩ := exists_target hplan hentries hkept.1
    refine ⟨_, htarget, rfl, ?_, ?_, hkept.2⟩
    · rw [hfilled hentries]
      exact fun hnil => hsome (Std.ExtTreeMap.toList_eq_nil_iff.1 hnil)
    · rw [hfilled hentries]
      exact Std.ExtTreeMap.length_toList.symm

variable (hapart : catalog.Apart before.current)
  (hretired : Changed {catalog.batchPlace between.current} {catalog.batchPlace between.current}
    between after)

include hapart hretired

/-- Only the batch and the stores that were merged hold something else. -/
theorem changed_of_writes :
    Changed (catalog.storePlaces before.current (merged.map (·.1)) ∪
        {catalog.batchPlace before.current})
      (catalog.storePlaces before.current (plan.targets.map (·.locale)) ∪
        {catalog.batchPlace before.current}) before after := by
  have hstores := hwrites.changed hapart fun _ htarget => mem_locales_of_mem_targets hplan htarget
  rw [hstores.current] at hretired
  exact (hstores.mono Set.subset_union_left Set.subset_union_left).trans
    (hretired.mono Set.subset_union_right Set.subset_union_right)

/-- A store that was not merged is what it was. -/
theorem kept_of_not_merged {locale : String} (hlocale : locale ∈ catalog.locales.locales)
    (hother : locale ∉ merged.map (·.1)) : Kept (catalog.storePath locale) before after := by
  have hlocales : ∀ target ∈ plan.targets, target.locale ∈ catalog.locales.locales :=
    fun _ htarget => mem_locales_of_mem_targets hplan htarget
  refine hapart.kept_store hlocale (changed_of_writes hplan hwrites hapart hretired) ?_ ?_
  · rintro place (⟨other, hmerged, rfl⟩ | rfl)
    · obtain ⟨target, htarget, rfl⟩ := List.mem_map.1 (hwrites.sublist.subset hmerged)
      exact Catalog.storePlace_mem_otherPlaces (hlocales target htarget) fun heq =>
        hother (heq ▸ hmerged)
    · exact Catalog.batchPlace_mem_otherPlaces
  · rintro goal (⟨other, hreached, rfl⟩ | rfl)
    · obtain ⟨target, htarget, rfl⟩ := List.mem_map.1 hreached
      exact Catalog.storePlace_mem_places (hlocales target htarget)
    · exact Catalog.batchPlace_mem_places

/-- A store that was merged is the written form of what it held with the entries. -/
theorem readBytes_of_merged {locale : String} {entries prior : Messages}
    (htarget : ⟨locale, entries, prior⟩ ∈ plan.targets) (hsome : entries ≠ ∅)
    (hstored : locale ∉ unwritten) :
    after.readBytes (catalog.storePath locale) =
      .ok (applyEntries prior entries).write.toUTF8 := by
  have hlocales : ∀ target ∈ plan.targets, target.locale ∈ catalog.locales.locales :=
    fun _ htarget => mem_locales_of_mem_targets hplan htarget
  have hcurrent := (hwrites.changed hapart hlocales).current
  obtain ⟨hlocale, -, htexts⟩ :=
    Plan.batch_spec hplan ((Plan.mem_targets_iff hplan).1 htarget).1
  have hwritten := hwrites.readBytes hapart hlocales (nodup_targets hplan) _ htarget
    (filledEntries_ne_nil hsome htexts) hstored
  exact (hcurrent ▸ hapart : catalog.Apart between.current).readBytes_store hlocale hretired
    (fun place hplace => .inl hplace) hwritten

/-- A store that was merged has the entries, and besides them what it held. -/
theorem loadStore_of_merged {locale : String} {entries prior : Messages}
    (htarget : ⟨locale, entries, prior⟩ ∈ plan.targets) (hsome : entries ≠ ∅)
    (hstored : locale ∉ unwritten) :
    ∃ store, catalog.loadStore locale after = .ok store ∧
      ∀ key : String, store[key]? = entries[key]?.or prior[key]? := by
  have hread := readBytes_of_merged hplan hwrites hapart hretired htarget hsome hstored
  obtain ⟨-, -, htexts⟩ := Plan.batch_spec hplan ((Plan.mem_targets_iff hplan).1 htarget).1
  exact ⟨applyEntries prior entries, Catalog.loadStore_of_readFile (readFile_messages hread),
    getElem?_applyEntries htexts⟩

/-- A store is what it was if its locale has no entries, or failed. -/
theorem kept_of_no_entries {locale : String} (hlocale : locale ∈ catalog.locales.locales)
    (hother : ∀ entries : Messages, plan.batch[locale]? = some entries → entries ≠ ∅ →
      locale ∈ plan.unreadable ∪ unwritten) : Kept (catalog.storePath locale) before after := by
  refine kept_of_not_merged hplan hwrites hapart hretired hlocale fun hmem => ?_
  obtain ⟨⟨_, n⟩, hn, rfl⟩ := List.mem_map.1 hmem
  obtain ⟨entries, hentries, hstored, hsome, -⟩ := (mem_merged_iff hplan hwrites).1 hn
  exact hstored (hother entries hentries hsome)

/-- A locale that did not fail has its entries in its store; without entries it is left alone. -/
theorem loadStore_of_not_failed {locale : String} {entries : Messages}
    (hentries : plan.batch[locale]? = some entries)
    (hstored : locale ∉ plan.unreadable ∪ unwritten) :
    ∃ prior, catalog.loadStore locale before = .ok prior ∧
      ((∃ store, catalog.loadStore locale after = .ok store ∧
          ∀ key : String, store[key]? = entries[key]?.or prior[key]?) ∨
        (entries = ∅ ∧ before.readText (catalog.storePath locale) = .error .notFound ∧
          Kept (catalog.storePath locale) before after)) := by
  have hlocale := (Plan.batch_spec hplan hentries).1
  rw [Std.ExtTreeMap.mem_union_iff, not_or] at hstored
  obtain ⟨prior, hprior, htarget⟩ := exists_target hplan hentries hstored.1
  refine ⟨prior, hprior, ?_⟩
  by_cases hnone : entries = ∅
  · have hidle : Kept (catalog.storePath locale) before after := by
      refine kept_of_no_entries hplan hwrites hapart hretired hlocale fun other hother hsome => ?_
      rw [hentries, Option.some_inj] at hother
      exact absurd (hother.symm.trans hnone) hsome
    rcases Catalog.loadStore_of_kept hprior hidle with hload | hmissing
    · refine .inl ⟨prior, hload, fun key => ?_⟩
      rw [hnone, Std.ExtTreeMap.getElem?_empty, Option.none_or]
    · exact .inr ⟨hnone, hmissing, hidle⟩
  · exact .inl (loadStore_of_merged hplan hwrites hapart hretired htarget hnone hstored.2)

end Run

/-! ## 4. The whole run -/

/-- What the stores and the batch are like once the batch was retired. -/
theorem conserved_of_retireBatch {plan : Plan} {merged : List (String × Nat)}
    {unwritten : Failures} {retired : Bool} {between : Workspace} (hapart : catalog.Apart before.current)
    (hplan : Plan.make catalog before = .ok plan)
    (hwrites : Writes catalog before plan.targets merged unwritten between)
    (hretire : runIn (retireBatch catalog plan.batch (plan.unreadable ∪ unwritten)) between =
      (.ok retired, after)) :
    Conserved catalog plan.batch ⟨countOf merged, merged, plan.unreadable ∪ unwritten, retired⟩
      before after := by
  have hcurrent : between.current = before.current :=
    (hwrites.changed hapart fun _ htarget => mem_locales_of_mem_targets hplan htarget).current
  obtain ⟨hretired, hcases⟩ := retireBatch_cases (hcurrent ▸ hapart) hretire
  have hrest (hsome : plan.unreadable ∪ unwritten ≠ ∅) :
      catalog.loadBatch after = .ok (some (remaining plan.batch (plan.unreadable ∪ unwritten))) := by
    rcases hcases with ⟨hnone, -⟩ | ⟨-, -, hload⟩
    · exact absurd hnone hsome
    · exact hload
  constructor
  case merged =>
    intro locale entries hentries hstored
    exact loadStore_of_not_failed hplan hwrites hapart hretired hentries hstored
  case failed =>
    intro locale entries hentries hfailed
    have hlocale := (Plan.batch_spec hplan hentries).1
    have hsome : plan.unreadable ∪ unwritten ≠ ∅ := fun hnone =>
      Std.ExtTreeMap.not_mem_empty (hnone ▸ hfailed)
    refine ⟨kept_of_no_entries hplan hwrites hapart hretired hlocale fun _ _ _ => hfailed, _,
      hrest hsome, ?_⟩
    rw [getElem?_remaining, if_pos hfailed, hentries]
  case gone =>
    rcases hcases with ⟨hnone, -, habsent⟩ | ⟨hsome, -, hload⟩
    · exact iff_of_true habsent hnone
    · refine iff_of_false (fun habsent => ?_) hsome
      rw [Catalog.loadBatch_of_notFound habsent] at hload
      cases hload
  case retired =>
    rcases hcases with ⟨hnone, rfl, -⟩ | ⟨hsome, rfl, -⟩
    · exact iff_of_true rfl hnone
    · exact iff_of_false Bool.false_ne_true hsome
  case remaining =>
    intro hsome
    refine ⟨_, hrest hsome, fun locale => ?_⟩
    rw [Std.ExtTreeMap.mem_iff_isSome_getElem?, getElem?_remaining]
    by_cases hfailed : locale ∈ plan.unreadable ∪ unwritten
    · rw [if_pos hfailed, ← Std.ExtTreeMap.mem_iff_isSome_getElem?]
      exact iff_of_true (mem_batch_of_mem_failures hplan hwrites hfailed) hfailed
    · rw [if_neg hfailed]
      exact iff_of_false Bool.false_ne_true hfailed
  case canonical =>
    have hlocale := catalog.locales.canonical_mem
    refine kept_of_no_entries hplan hwrites hapart hretired hlocale fun entries hentries _ => ?_
    exact absurd rfl (Plan.batch_spec hplan hentries).2.1
  case others =>
    intro locale hlocale hother
    refine kept_of_no_entries hplan hwrites hapart hretired hlocale fun entries hentries _ => ?_
    exact absurd (mem_iff_exists_getElem?.2 ⟨entries, hentries⟩) hother
  case elsewhere =>
    intro place hbatch hother
    refine (changed_of_writes hplan hwrites hapart hretired).find?_file_iff ?_
    rintro (hmerged | heq)
    · exact hother hmerged
    · exact hbatch heq
  case ordered => exact (ordered_targets hplan).sublist hwrites.sublist
  case counted =>
    intro locale n
    exact mem_merged_iff hplan hwrites
  case total => rfl

/-- A merge that succeeds loses nothing: what was in the batch is in the stores or still in the
    batch, and what was in the stores is still there. -/
theorem conserved_of_merge {report : Report} (hapart : catalog.Apart before.current)
    (h : runIn (merge catalog) before = (.ok report, after)) :
    ∃ batch, catalog.loadBatch before = .ok (some batch) ∧
      Conserved catalog batch report before after := by
  obtain ⟨plan, hplan, -⟩ := FileAction.run_inspect_bind_eq_ok.1 h
  obtain ⟨merged, unwritten, between, hwrites, -, hrun⟩ := run_merge hplan
  obtain ⟨canonical, hbatch, -⟩ := Plan.make_eq_ok hplan
  rw [hrun] at h
  split at h
  · cases h
  · split at h
    · rename_i last hretire
      cases h
      exact ⟨plan.batch, hbatch, conserved_of_retireBatch hapart hplan hwrites hretire⟩
    · cases h

/-- Of two stores that can be read the disk refuses one, so one is merged and the other fails. -/
theorem conserved_sample : ∃ store report batch,
    Catalog.trio.loadStore "de" .refusing = .ok store ∧ report.failures.keys = ["de"] ∧
      report.locales = [("fr", 1)] ∧ Catalog.trio.loadBatch .refusing = .ok (some batch) ∧
      Conserved .trio batch report .refusing (runIn (merge .trio) .refusing).2 := by
  obtain ⟨report, h, hreport⟩ := FileAction.exists_of_any (merge .trio) .refusing
    (fun report => report.failures.keys = ["de"] ∧ report.locales = [("fr", 1)])
    (by decide +kernel)
  obtain ⟨hfailed, hmerged⟩ := of_decide_eq_true hreport
  obtain ⟨batch, hbatch, hconserved⟩ := conserved_of_merge (by decide +kernel) h
  exact ⟨_, report, batch, Catalog.loadStore_refusing, hfailed, hmerged, hbatch, hconserved⟩

end LocaleCatalog.Merge
