import LocaleCatalog.Proofs.Catalog.Contents
import LocaleCatalog.Proofs.Sync.Plan
import LocaleCatalog.Sync.Run

/-!
# What a synchronization writes

* `Sync.readBytes_of_writeStores`: the stores are written one after the other, and each still holds
  its messages at the end. Where they hold them already, nothing is changed
  (`Sync.run_writeStores_self`);
* `Sync.Plan.outcome_of_writeBatch`: what is said of the batch, and what stands in its place then;
* `Sync.run_synchronize`: a synchronization of files that can be loaded writes what it plans, and
  without them it changes nothing (`Sync.run_synchronize_of_error`);
* `Sync.holds_of_synchronize`: what it does to the files is what `Contents.synchronized` does to
  their contents;
* `Sync.synchronize_cases`: however it ends, it has written stores and after them at most the batch.
  So no file outside of the catalog is changed (`Sync.changed_of_synchronize`), and each store is
  what it was or was rebuilt (`Sync.stores_of_synchronize`);
* `Sync.acceptedFor_of_synchronize`: what a synchronization that succeeds has written, the disk
  accepts.

The stores and the batch must not get into each other's way (`Catalog.Apart`).
-/

namespace LocaleCatalog.Sync

open FileAction (runIn Within Moves Changes)
open Workspace (Changed Kept Heeded)

/-! ## 1. Writing -/

variable {catalog : Catalog} {keys : KeySet} {before after : Workspace} {plan : Plan}

/-- The stores of some locales are written, and nothing else. -/
theorem within_writeStores {current : Location} {plans : List LocalePlan}
    (hapart : catalog.Apart current)
    (hlocales : ∀ plan ∈ plans, plan.locale ∈ catalog.locales.locales) :
    Within current (catalog.storePlaces current (plans.map (·.locale)))
      (catalog.storePlaces current (plans.map (·.locale)))
      (plans.forM fun plan => catalog.saveStore plan.locale plan.store) := by
  refine FileAction.Moves.forM fun plan hplan => ?_
  have hplace : {catalog.storePlace current plan.locale} ⊆
      catalog.storePlaces current (plans.map (·.locale)) :=
    Catalog.singleton_subset_storePlaces (List.mem_map_of_mem hplan)
  exact (catalog.within_saveStore hapart (hlocales plan hplan) plan.store).mono hplace hplace

/-- Each store is written once, and holds its messages from then on. -/
theorem readBytes_of_writeStores {plans : List LocalePlan} (hapart : catalog.Apart before.current)
    (hlocales : ∀ plan ∈ plans, plan.locale ∈ catalog.locales.locales)
    (hnodup : (plans.map (·.locale)).Nodup)
    (h : runIn (plans.forM fun plan => catalog.saveStore plan.locale plan.store) before =
      (.ok (), after)) :
    ∀ plan ∈ plans,
      after.readBytes (catalog.storePath plan.locale) = .ok plan.store.write.toUTF8 := by
  induction plans generalizing before with
  | nil => exact fun _ hplan => absurd hplan List.not_mem_nil
  | cons first plans ih =>
    obtain ⟨⟨⟩, between, hsave, hmore⟩ := FileAction.run_bind_eq_ok.1 h
    rw [List.map_cons, List.nodup_cons] at hnodup
    have hfirst := hlocales first List.mem_cons_self
    have hlocales' : ∀ plan ∈ plans, plan.locale ∈ catalog.locales.locales :=
      fun plan hplan => hlocales plan (List.mem_cons_of_mem _ hplan)
    have hcurrent : between.current = before.current :=
      ((catalog.within_saveStore hapart hfirst first.store).changed hsave).current
    rw [← hcurrent] at hapart
    intro plan hplan
    rcases List.mem_cons.1 hplan with rfl | hplan
    · -- the stores that are written later are others
      have hchanged := (within_writeStores hapart hlocales').changed hmore
      refine hapart.readBytes_store hfirst hchanged ?_
        (Catalog.readBytes_of_saveStore hsave)
      rintro _ ⟨other, hother, rfl⟩
      obtain ⟨planned, hplanned, rfl⟩ := List.mem_map.1 hother
      refine .inr ⟨_, hlocales' planned hplanned, ?_, rfl⟩
      intro heq
      exact hnodup.1 (heq ▸ hother)
    · exact ih hapart hlocales' hnodup.2 hmore plan hplan

/-- Stores that hold their messages already stay as they are, and so does all else. -/
theorem run_writeStores_self {plans : List LocalePlan} (hapart : catalog.Apart before.current)
    (hlocales : ∀ plan ∈ plans, plan.locale ∈ catalog.locales.locales)
    (haccepts : ∀ plan ∈ plans, before.Accepts (catalog.storePath plan.locale))
    (hheld : ∀ plan ∈ plans,
      before.readBytes (catalog.storePath plan.locale) = .ok plan.store.write.toUTF8) :
    runIn (plans.forM fun plan => catalog.saveStore plan.locale plan.store) before =
      (.ok (), before) := by
  induction plans with
  | nil => rfl
  | cons first plans ih =>
    have hsave : runIn (catalog.saveStore first.locale first.store) before = (.ok (), before) :=
      run_writeFile_self (hapart.plain_store (hlocales first List.mem_cons_self))
        (hheld first List.mem_cons_self) (haccepts first List.mem_cons_self)
    rw [FileAction.run_forM_cons, hsave]
    exact ih (fun plan hplan => hlocales plan (List.mem_cons_of_mem _ hplan))
      (fun plan hplan => haccepts plan (List.mem_cons_of_mem _ hplan))
      fun plan hplan => hheld plan (List.mem_cons_of_mem _ hplan)

/-- However the writing of the stores ends, each store is what it was or holds its messages. -/
theorem stores_of_writeStores {plans : List LocalePlan} {result : Except StoreError PUnit}
    (hapart : catalog.Apart before.current)
    (hlocales : ∀ plan ∈ plans, plan.locale ∈ catalog.locales.locales)
    (h : runIn (plans.forM fun plan => catalog.saveStore plan.locale plan.store) before =
      (result, after)) {locale : String} (hlocale : locale ∈ catalog.locales.locales) :
    Kept (catalog.storePath locale) before after ∨ ∃ plan ∈ plans, plan.locale = locale ∧
      after.readBytes (catalog.storePath locale) = .ok plan.store.write.toUTF8 := by
  induction plans generalizing before with
  | nil =>
    cases h
    exact .inl (.refl _ _)
  | cons first plans ih =>
    have hfirst := hlocales first List.mem_cons_self
    have hlocales' : ∀ plan ∈ plans, plan.locale ∈ catalog.locales.locales :=
      fun plan hplan => hlocales plan (List.mem_cons_of_mem _ hplan)
    rw [FileAction.run_forM_cons] at h
    rcases hsave : runIn (catalog.saveStore first.locale first.store) before with ⟨saved, between⟩
    rw [hsave] at h
    cases saved with
    | error error =>
      cases h
      exact .inl (hapart.kept_of_saveStore_error hlocale hfirst hsave)
    | ok =>
      have hsaved := (catalog.within_saveStore hapart hfirst first.store).changed hsave
      have hcurrent : between.current = before.current := hsaved.current
      have hapart' : catalog.Apart between.current := hcurrent ▸ hapart
      rcases ih hapart' hlocales' h with hkept | ⟨plan, hplan, hwritten⟩
      · by_cases heq : first.locale = locale
        · subst heq
          exact .inr ⟨first, List.mem_cons_self, rfl,
            hkept.contents _ (Catalog.readBytes_of_saveStore hsave)⟩
        · refine .inl (.trans (hapart.kept_store hlocale hsaved ?_ ?_) hkept hcurrent)
          · exact Set.singleton_subset_iff.2
              (Catalog.storePlace_mem_otherPlaces hfirst (Ne.symm heq))
          · exact Set.singleton_subset_iff.2 (Catalog.storePlace_mem_places hfirst)
      · exact .inr ⟨plan, List.mem_cons_of_mem _ hplan, hwritten⟩

theorem within_writeBatch {current : Location} (hapart : catalog.Apart current) (plan : Plan) :
    Within current {catalog.batchPlace current} {catalog.batchPlace current}
      (plan.writeBatch catalog) := by
  unfold Plan.writeBatch
  split
  · exact ((FileAction.within_removeFile hapart.plain_batch).mapError _).bind fun _ =>
      FileAction.moves_pure _
  · exact (within_writeFile hapart.plain_batch _).bind fun _ => FileAction.moves_pure _

/-- The batch is gone if there is nothing to be translated; otherwise it is written. -/
theorem Plan.holdsBatch_of_writeBatch {outcome : BatchOutcome}
    (h : runIn (plan.writeBatch catalog) before = (.ok outcome, after)) :
    catalog.HoldsBatch after plan.batch? := by
  unfold Plan.writeBatch at h
  unfold Plan.batch?
  split at h
  · rename_i hempty
    obtain ⟨removed, between, hremove, hdone⟩ := FileAction.run_bind_eq_ok.1 h
    cases hdone
    rw [if_pos hempty]
    exact FileAction.entryAt_of_removeFile (FileAction.run_mapError_eq_ok.1 hremove)
  · rename_i hempty
    obtain ⟨⟨⟩, between, hsave, hdone⟩ := FileAction.run_bind_eq_ok.1 h
    cases hdone
    rw [if_neg hempty]
    exact readBytes_of_writeFile hsave

/-- A batch was written with all its entries, or what stood in its place was taken away. -/
theorem Plan.outcome_of_writeBatch {outcome : BatchOutcome}
    (h : runIn (plan.writeBatch catalog) before = (.ok outcome, after)) :
    (plan.batch ≠ ∅ ∧ outcome = .written plan.batch.entryCount plan.carried ∧
        catalog.loadBatch after = .ok (some plan.batch)) ∨
      ∃ removed, plan.batch = ∅ ∧ outcome = .upToDate removed ∧
        catalog.loadBatch after = .ok none ∧
        runIn (FileAction.removeFile catalog.batch) before = (.ok removed, after) := by
  have hload : catalog.loadBatch after = .ok plan.batch? := (holdsBatch_of_writeBatch h).loadBatch
  unfold Plan.writeBatch at h
  unfold batch? at hload
  split at h
  · rename_i hempty
    obtain ⟨removed, last, hremove, hdone⟩ := FileAction.run_bind_eq_ok.1 h
    cases hdone
    rw [if_pos hempty] at hload
    exact .inr ⟨removed, Std.ExtTreeMap.isEmpty_iff.1 hempty, rfl, hload,
      FileAction.run_mapError_eq_ok.1 hremove⟩
  · rename_i hsome
    obtain ⟨⟨⟩, last, -, hdone⟩ := FileAction.run_bind_eq_ok.1 h
    cases hdone
    rw [if_neg hsome] at hload
    exact .inl ⟨fun hempty => hsome (Std.ExtTreeMap.isEmpty_iff.2 hempty), rfl, hload⟩

/-! ## 2. The whole run -/

/-- The report on a plan that was carried out. -/
def Plan.report (plan : Plan) (batch : BatchOutcome) : Report where
  keyCount := plan.keyCount
  diff := plan.diff
  locales := plan.locales.map (·.summary)
  batch := batch

variable {contents : Contents}

/-- A synchronization of files that can be loaded writes the stores, then the batch, as planned. -/
theorem run_synchronize (hloads : catalog.Loads before contents) (keys : KeySet) :
    runIn (synchronize catalog keys) before =
      match runIn ((contents.plan catalog.locales keys).writeStores catalog) before with
      | (.error error, between) => (.error error, between)
      | (.ok (), between) =>
        match runIn ((contents.plan catalog.locales keys).writeBatch catalog) between with
        | (.error error, after) => (.error error, after)
        | (.ok outcome, after) =>
          (.ok ((contents.plan catalog.locales keys).report outcome), after) := by
  unfold synchronize
  rw [FileAction.run_bind, FileAction.run_inspect, Plan.make_of_loads hloads]
  dsimp only
  unfold Plan.commit
  rw [FileAction.run_bind]
  rcases runIn ((contents.plan catalog.locales keys).writeStores catalog) before with
    ⟨written, between⟩
  cases written with
  | error error => rfl
  | ok =>
    dsimp only
    rw [FileAction.run_bind]
    rcases runIn ((contents.plan catalog.locales keys).writeBatch catalog) between with
      ⟨outcome, after⟩
    cases outcome <;> rfl

/-- A synchronization that cannot load a file changes nothing. -/
theorem run_synchronize_of_error {error : StoreError}
    (h : Plan.make catalog keys before = .error error) :
    runIn (synchronize catalog keys) before = (.error error, before) := by
  unfold synchronize
  rw [FileAction.run_bind, FileAction.run_inspect, h]

/-- A synchronization that succeeds has loaded all files of the catalog. -/
theorem exists_loads_of_synchronize {report : Report}
    (h : runIn (synchronize catalog keys) before = (.ok report, after)) :
    ∃ contents, catalog.Loads before contents := by
  obtain ⟨plan, hplan, -⟩ := FileAction.run_inspect_bind_eq_ok.1 h
  exact Plan.exists_loads hplan

theorem synchronize_eq_ok {report : Report} (hloads : catalog.Loads before contents) :
    runIn (synchronize catalog keys) before = (.ok report, after) ↔ ∃ between outcome,
      runIn ((contents.plan catalog.locales keys).writeStores catalog) before = (.ok (), between) ∧
      runIn ((contents.plan catalog.locales keys).writeBatch catalog) between =
        (.ok outcome, after) ∧
      report = (contents.plan catalog.locales keys).report outcome := by
  rw [run_synchronize hloads]
  rcases runIn ((contents.plan catalog.locales keys).writeStores catalog) before with
    ⟨written, between⟩
  cases written with
  | error error => simp
  | ok =>
    dsimp only
    rcases hbatch : runIn ((contents.plan catalog.locales keys).writeBatch catalog) between with
      ⟨outcome, last⟩
    constructor
    · intro h
      cases outcome with
      | error error => cases h
      | ok outcome =>
        cases h
        exact ⟨between, outcome, rfl, hbatch, rfl⟩
    · rintro ⟨between', outcome', heq, hbatch', rfl⟩
      cases heq
      rw [hbatch] at hbatch'
      cases hbatch'
      rfl

section Contents

variable (hapart : catalog.Apart before.current) (hloads : catalog.Loads before contents)

theorem mem_locales_of_mem_plan {plan : LocalePlan}
    (h : plan ∈ (contents.plan catalog.locales keys).locales) :
    plan.locale ∈ catalog.locales.locales := by
  obtain ⟨locale, hlocale, rfl⟩ := List.mem_map.1 h
  exact hlocale

theorem map_locale_plan :
    (contents.plan catalog.locales keys).locales.map (·.locale) = catalog.locales.locales := by
  unfold Contents.plan
  rw [List.map_map]
  exact List.map_id' _

include hapart

/-- The stores of a plan are those of the locales. -/
theorem changed_stores_of_writeStores {written : Except StoreError Unit}
    (h : runIn ((contents.plan catalog.locales keys).writeStores catalog) before =
      (written, after)) :
    Changed (catalog.storePlaces before.current catalog.locales.locales)
      (catalog.storePlaces before.current catalog.locales.locales) before after := by
  have hchanged := (within_writeStores hapart fun _ => mem_locales_of_mem_plan).changed h
  rwa [map_locale_plan] at hchanged

/-- The stores of a plan are files of the catalog. -/
theorem changed_of_writeStores {written : Except StoreError Unit}
    (h : runIn ((contents.plan catalog.locales keys).writeStores catalog) before =
      (written, after)) :
    Changed (catalog.places before.current) (catalog.places before.current) before after := by
  have hplaces : catalog.storePlaces before.current catalog.locales.locales ⊆
      catalog.places before.current := Catalog.storePlaces_subset_places (List.Subset.refl _)
  exact (changed_stores_of_writeStores hapart h).mono hplaces hplaces

include hloads

/-- The files hold what becomes of their contents, and no other file is another one. -/
theorem holds_of_synchronize {report : Report}
    (h : runIn (synchronize catalog keys) before = (.ok report, after)) :
    catalog.Holds after (contents.synchronized catalog.locales keys) ∧
      Changed (catalog.places before.current) (catalog.places before.current) before after := by
  obtain ⟨between, outcome, hwrite, hbatch, -⟩ := (synchronize_eq_ok hloads).1 h
  have hstores := changed_of_writeStores hapart hwrite
  have hcurrent : between.current = before.current := hstores.current
  have hapart' : catalog.Apart between.current := hcurrent ▸ hapart
  have hchanged := (within_writeBatch hapart' _).changed hbatch
  have hnodup : ((contents.plan catalog.locales keys).locales.map (·.locale)).Nodup := by
    rw [map_locale_plan]
    exact catalog.locales.nodup
  have hwritten : catalog.HoldsStores between (contents.synchronized catalog.locales keys).stores := by
    intro locale hlocale
    have hplanned : LocalePlan.make catalog.locales keys (contents.batch.getD ∅) locale
        (contents.stores locale) ∈ (contents.plan catalog.locales keys).locales :=
      List.mem_map_of_mem hlocale
    have hread := readBytes_of_writeStores hapart (fun _ => mem_locales_of_mem_plan) hnodup hwrite
      _ hplanned
    rwa [LocalePlan.locale_make, LocalePlan.store_make] at hread
  refine ⟨⟨hwritten.of_changed hapart' hchanged, Plan.holdsBatch_of_writeBatch hbatch⟩, ?_⟩
  rw [hcurrent] at hchanged
  exact hstores.trans
    (hchanged.mono Catalog.batchPlace_subset_places Catalog.batchPlace_subset_places)

end Contents

/-! ## 3. What the disk accepts -/

section Moves

variable {related : Workspace → Workspace → Prop} [Changes related]

theorem moves_writeStores (catalog : Catalog) (plans : List LocalePlan) :
    Moves related (plans.forM fun plan => catalog.saveStore plan.locale plan.store) :=
  Moves.forM fun _ _ => catalog.moves_saveStore _ _

theorem Plan.moves_writeBatch (plan : Plan) (catalog : Catalog) :
    Moves related (plan.writeBatch catalog) := by
  unfold Plan.writeBatch
  split
  · exact catalog.moves_removeBatch.bind fun _ => FileAction.moves_pure _
  · exact (catalog.moves_saveBatch _).bind fun _ => FileAction.moves_pure _

/-- A synchronization moves along whatever the changes of a tree move along. -/
theorem moves_synchronize (catalog : Catalog) (keys : KeySet) :
    Moves related (synchronize catalog keys) :=
  (FileAction.moves_inspect _).bind fun plan => (moves_writeStores catalog plan.locales).bind
    fun _ => (plan.moves_writeBatch catalog).bind fun _ => FileAction.moves_pure _

end Moves

/-- Stores that were written were accepted. -/
theorem accepts_of_writeStores {plans : List LocalePlan}
    (h : runIn (plans.forM fun plan => catalog.saveStore plan.locale plan.store) before =
      (.ok (), after)) :
    ∀ plan ∈ plans, before.Accepts (catalog.storePath plan.locale) := by
  induction plans generalizing before with
  | nil => exact fun _ hplan => absurd hplan List.not_mem_nil
  | cons first plans ih =>
    obtain ⟨⟨⟩, between, hsave, hmore⟩ := FileAction.run_bind_eq_ok.1 h
    have hheeded : Heeded before between := (catalog.moves_saveStore _ _).of_run hsave
    refine List.forall_mem_cons.2 ⟨accepts_of_writeFile hsave, fun plan hplan => ?_⟩
    exact hheeded.accepts_iff.1 (ih hmore plan hplan)

/-- A batch that was written was accepted, and so was one that was there and was taken away. -/
theorem Plan.accepts_of_writeBatch {outcome : BatchOutcome}
    (h : runIn (plan.writeBatch catalog) before = (.ok outcome, after))
    (hfound : plan.batch? ≠ none ∨ ∃ bytes, before.readBytes catalog.batch = .ok bytes) :
    before.Accepts catalog.batch := by
  unfold Plan.batch? at hfound
  unfold Plan.writeBatch at h
  split at h
  · rename_i hempty
    rw [if_pos hempty] at hfound
    obtain ⟨bytes, hread⟩ := hfound.resolve_left (not_not_intro rfl)
    obtain ⟨removed, between, hremove, -⟩ := FileAction.run_bind_eq_ok.1 h
    exact FileAction.accepts_of_removeFile hread (FileAction.run_mapError_eq_ok.1 hremove)
  · obtain ⟨⟨⟩, between, hsave, -⟩ := FileAction.run_bind_eq_ok.1 h
    exact accepts_of_writeFile hsave

/-- What a synchronization that succeeds has made of the contents, the disk has accepted. -/
theorem acceptedFor_of_synchronize {report : Report} (hloads : catalog.Loads before contents)
    (h : runIn (synchronize catalog keys) before = (.ok report, after)) :
    catalog.AcceptedFor before (contents.synchronized catalog.locales keys) := by
  obtain ⟨between, outcome, hwrite, hbatch, -⟩ := (synchronize_eq_ok hloads).1 h
  have hheeded : Heeded before between := (moves_writeStores catalog _).of_run hwrite
  constructor
  case store =>
    intro locale hlocale
    exact accepts_of_writeStores hwrite (LocalePlan.make catalog.locales keys
      (contents.batch.getD ∅) locale (contents.stores locale)) (List.mem_map_of_mem hlocale)
  case batch =>
    exact fun hsome => hheeded.accepts_iff.1 (Plan.accepts_of_writeBatch hbatch (.inl hsome))

/-- A batch that was there before, too. -/
theorem accepts_batch_of_synchronize {report : Report} (hapart : catalog.Apart before.current)
    (hloads : catalog.Loads before contents)
    (h : runIn (synchronize catalog keys) before = (.ok report, after)) {bytes : ByteArray}
    (hread : before.readBytes catalog.batch = .ok bytes) : before.Accepts catalog.batch := by
  obtain ⟨between, outcome, hwrite, hbatch, -⟩ := (synchronize_eq_ok hloads).1 h
  have hheeded : Heeded before between := (moves_writeStores catalog _).of_run hwrite
  have hstill : between.readBytes catalog.batch = .ok bytes :=
    hapart.readBytes_batch (List.Subset.refl _) (changed_stores_of_writeStores hapart hwrite) hread
  exact hheeded.accepts_iff.1 (Plan.accepts_of_writeBatch hbatch (.inr ⟨bytes, hstill⟩))

/-! ## 4. However it ends -/

section Ending

variable {result : Except StoreError Report} (hapart : catalog.Apart before.current)
  (h : runIn (synchronize catalog keys) before = (result, after))

include hapart h

/-- A synchronization changes nothing, or it writes stores, and after that at most the batch. -/
theorem synchronize_cases : after = before ∨ ∃ contents written between,
    catalog.Loads before contents ∧
    runIn ((contents.plan catalog.locales keys).writeStores catalog) before = (written, between) ∧
    between.current = before.current ∧
    Changed {catalog.batchPlace before.current} {catalog.batchPlace before.current}
      between after := by
  cases hplan : Plan.make catalog keys before with
  | error error =>
    rw [run_synchronize_of_error hplan] at h
    cases h
    exact .inl rfl
  | ok plan =>
    obtain ⟨contents, hloads⟩ := Plan.exists_loads hplan
    rcases hwrite : runIn ((contents.plan catalog.locales keys).writeStores catalog) before with
      ⟨written, between⟩
    have hcurrent : between.current = before.current :=
      (changed_of_writeStores hapart hwrite).current
    refine .inr ⟨contents, written, between, hloads, hwrite, hcurrent, ?_⟩
    rw [run_synchronize hloads, hwrite] at h
    cases written with
    | error error =>
      cases h
      exact .refl _ _ _
    | ok =>
      rcases hbatch : runIn ((contents.plan catalog.locales keys).writeBatch catalog) between with
        ⟨outcome, last⟩
      dsimp only at h
      rw [hbatch] at h
      have hlast : last = after := by cases outcome <;> cases h <;> rfl
      subst hlast
      rw [← hcurrent]
      exact (within_writeBatch (hcurrent ▸ hapart) _).changed hbatch

/-- However a synchronization ends, only files of the catalog are changed. -/
theorem changed_of_synchronize :
    Changed (catalog.places before.current) (catalog.places before.current) before after := by
  rcases synchronize_cases hapart h with
    rfl | ⟨contents, written, between, hloads, hwrite, hcurrent, hbatch⟩
  · exact .refl _ _ _
  · exact (changed_of_writeStores hapart hwrite).trans
      (hbatch.mono Catalog.batchPlace_subset_places Catalog.batchPlace_subset_places)

/-- However a synchronization ends, each store is what it was or was rebuilt. -/
theorem stores_of_synchronize {locale : String} (hlocale : locale ∈ catalog.locales.locales) :
    Kept (catalog.storePath locale) before after ∨ ∃ prior,
      catalog.loadStore locale before = .ok prior ∧
      after.readBytes (catalog.storePath locale) =
        .ok (rebuild keys prior (locale = catalog.locales.canonical)).write.toUTF8 := by
  rcases synchronize_cases hapart h with
    rfl | ⟨contents, written, between, hloads, hwrite, hcurrent, hbatch⟩
  · exact .inl (.refl _ _)
  · have hlocales : ∀ plan ∈ (contents.plan catalog.locales keys).locales,
        plan.locale ∈ catalog.locales.locales := fun _ => mem_locales_of_mem_plan
    -- the batch is written after the stores, and touches none of them
    have hkept : Kept (catalog.storePath locale) between after := by
      have hapart' : catalog.Apart between.current := hcurrent ▸ hapart
      rw [← hcurrent] at hbatch
      exact hapart'.kept_of_changed_batch hlocale hbatch
    rcases stores_of_writeStores hapart hlocales hwrite hlocale with
      hstore | ⟨plan, hplan, rfl, hread⟩
    · exact .inl (hstore.trans hkept hcurrent)
    · obtain ⟨locale, -, rfl⟩ := List.mem_map.1 hplan
      exact .inr ⟨contents.stores locale, hloads.store locale hlocale, hkept.contents _ hread⟩

end Ending

end LocaleCatalog.Sync
