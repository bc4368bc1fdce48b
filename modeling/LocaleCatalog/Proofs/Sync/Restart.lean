import LocaleCatalog.Proofs.Catalog.Interruption
import LocaleCatalog.Proofs.Sync.Absorption

/-!
# A synchronization that is interrupted

A synchronization that was stopped among its stores leaves some of them rebuilt and the others, and
the batch, as they were. Another one with the same keys does not have to know:

* `Contents.locales_plan_midway`, `Contents.batch?_plan_midway`: a rebuilt store is planned as the
  store that it was rebuilt from, so that the same is to be translated, and the old batch still has
  the texts for it;
* `Sync.loads_midway`: from where the run was stopped, the files load as these contents;
* `Sync.exists_run_synchronize_midway`: all that is planned can be written from there;
* `Sync.restartable_of_synchronize`: so a run can be stopped and started again, and the files of the
  catalog come out as if it had not been stopped.
-/

namespace LocaleCatalog

open FileAction (runIn)
open Workspace (Changed Heeded NoStricter)
open Sync

/-! ## 1. Contents -/

namespace Contents

variable {contents : Contents} {locales : LocaleSet} {keys : KeySet} {written : List String}

/-- The contents when the stores of some locales were rebuilt, and nothing else was done. -/
def midway (contents : Contents) (locales : LocaleSet) (keys : KeySet) (written : List String) :
    Contents where
  stores locale :=
    if locale ∈ written then (contents.synchronized locales keys).stores locale
    else contents.stores locale
  batch := contents.batch

theorem rebuild_midway (locale : String) :
    rebuild keys ((contents.midway locales keys written).stores locale)
        (locale = locales.canonical) =
      rebuild keys (contents.stores locale) (locale = locales.canonical) := by
  show rebuild keys (if locale ∈ written then _ else _) _ = _
  split
  · exact rebuild_rebuild fun _ hkey => hkey
  · rfl

/-- All locales are planned as if no store had been rebuilt yet. -/
theorem locales_plan_midway :
    ((contents.midway locales keys written).plan locales keys).locales =
      (contents.plan locales keys).locales := by
  refine List.map_congr_left fun locale _ => ?_
  unfold LocalePlan.make
  dsimp only
  rw [rebuild_midway]
  rfl

theorem batch?_plan_midway :
    ((contents.midway locales keys written).plan locales keys).batch? =
      (contents.plan locales keys).batch? := by
  unfold Plan.batch? Plan.batch
  rw [locales_plan_midway]

theorem synchronized_midway :
    (contents.midway locales keys written).synchronized locales keys =
      contents.synchronized locales keys :=
  congrArg₂ Contents.mk (funext fun locale => rebuild_midway locale) batch?_plan_midway

end Contents

/-! ## 2. Writing -/

namespace FileAction

variable {ε β : Type} {before after : Workspace}

/-- Of two parts of a list, the first is gone through first. -/
theorem run_forM_append_eq_ok {items more : List β} {action : β → FileAction ε PUnit} :
    runIn ((items ++ more).forM action) before = (.ok (), after) ↔
      ∃ between, runIn (items.forM action) before = (.ok (), between) ∧
        runIn (more.forM action) between = (.ok (), after) := by
  induction items generalizing before with
  | nil => exact ⟨fun h => ⟨before, rfl, h⟩, fun ⟨_, hnil, hmore⟩ => by cases hnil; exact hmore⟩
  | cons item items ih =>
    rw [List.cons_append, run_forM_cons, run_forM_cons]
    rcases runIn (action item) before with ⟨result, between⟩
    cases result with
    | error error => simp
    | ok => exact ih

end FileAction

namespace Sync

variable {catalog : Catalog} {keys : KeySet} {before stopped between after : Workspace} {plan : Plan}
  {contents : Contents} {written : List String}

/-- Stores are written where nothing is in the way of any of them. -/
theorem exists_run_writeStores {plans : List LocalePlan} (hapart : catalog.Apart before.current)
    (hlocales : ∀ plan ∈ plans, plan.locale ∈ catalog.locales.locales)
    (hnodup : (plans.map (·.locale)).Nodup)
    (hopen : ∀ plan ∈ plans, before.Open (catalog.storePath plan.locale)) :
    ∃ after, runIn (plans.forM fun plan => catalog.saveStore plan.locale plan.store) before =
      (.ok (), after) := by
  induction plans generalizing before with
  | nil => exact ⟨before, rfl⟩
  | cons first plans ih =>
    rw [List.map_cons, List.nodup_cons] at hnodup
    have hfirst := hlocales first List.mem_cons_self
    obtain ⟨between, hsave⟩ := exists_run_writeFile_of_open (hapart.plain_store hfirst)
      (hopen first List.mem_cons_self) first.store.write
    have hsave' : runIn (catalog.saveStore first.locale first.store) before = (.ok (), between) :=
      hsave
    have hchanged := (catalog.within_saveStore hapart hfirst first.store).changed hsave'
    rw [FileAction.run_forM_cons, hsave']
    refine ih (hchanged.current ▸ hapart)
      (fun plan hplan => hlocales plan (List.mem_cons_of_mem _ hplan)) hnodup.2
      fun plan hplan => ?_
    have hlocale := hlocales plan (List.mem_cons_of_mem _ hplan)
    have hother : first.locale ≠ plan.locale :=
      fun heq => hnodup.1 (heq ▸ List.mem_map_of_mem hplan)
    have hheeded : Heeded before between := (catalog.moves_saveStore _ _).of_run hsave'
    refine (hopen plan (List.mem_cons_of_mem _ hplan)).of_changed hchanged hheeded.noStricter ?_ ?_
    · rintro _ rfl
      exact hapart.store_store hfirst hlocale hother
    · rintro _ rfl hon
      exact absurd hon (hapart.store_store hlocale hfirst hother.symm)

/-- The batch is written where nothing is in its way, and taken away where it can be found, if the
    disk accepts that, or is not there. -/
theorem exists_run_writeBatch (hapart : catalog.Apart before.current)
    (hopen : ∀ batch, plan.batch? = some batch → before.Open catalog.batch)
    (hfound : (∃ bytes, before.readBytes catalog.batch = .ok bytes ∧ before.Accepts catalog.batch) ∨
      before.entryAt catalog.batch = .error .notFound) :
    ∃ outcome after, runIn (plan.writeBatch catalog) before = (.ok outcome, after) := by
  unfold Plan.batch? at hopen
  unfold Plan.writeBatch
  split
  · unfold Catalog.removeBatch
    rcases hfound with ⟨bytes, hread, haccepts⟩ | hnone
    · obtain ⟨after, hremove⟩ :=
        FileAction.run_removeFile_of_readBytes hapart.plain_batch hread haccepts
      rw [FileAction.run_bind, FileAction.run_mapError, hremove]
      exact ⟨_, after, rfl⟩
    · rw [FileAction.run_bind, FileAction.run_mapError,
        FileAction.run_removeFile_of_notFound hapart.plain_batch hnone]
      exact ⟨_, before, rfl⟩
  · rename_i hsome
    obtain ⟨after, hsave⟩ := exists_run_writeFile_of_open hapart.plain_batch
      (hopen _ (if_neg hsome)) plan.batch.write
    unfold Catalog.saveBatch
    rw [FileAction.run_bind, hsave]
    exact ⟨_, after, rfl⟩

/-- Stores of the plan, written one after the other, are files of the catalog. -/
theorem changed_of_forM {plans : List LocalePlan} {result : Except StoreError PUnit}
    (hapart : catalog.Apart before.current)
    (hlocales : ∀ plan ∈ plans, plan.locale ∈ catalog.locales.locales)
    (h : runIn (plans.forM fun plan => catalog.saveStore plan.locale plan.store) before =
      (result, after)) :
    Changed (catalog.places before.current) (catalog.places before.current) before after := by
  have hplaces : catalog.storePlaces before.current (plans.map (·.locale)) ⊆
      catalog.places before.current := by
    refine Catalog.storePlaces_subset_places fun locale hlocale => ?_
    obtain ⟨plan, hplan, rfl⟩ := List.mem_map.1 hlocale
    exact hlocales plan hplan
  exact ((within_writeStores hapart hlocales).changed h).mono hplaces hplaces

/-! ## 3. The run that was stopped -/

section Run

variable (hloads : catalog.Loads before contents) {report : Report}
  (h : runIn (synchronize catalog keys) before = (.ok report, after))

include hloads h

/-- A run that succeeds has written the stores of any number of locales first. -/
theorem exists_run_take (n : Nat) : ∃ stopped between outcome,
    runIn (((contents.plan catalog.locales keys).locales.take n).forM
      fun plan => catalog.saveStore plan.locale plan.store) before = (.ok (), stopped) ∧
    runIn (((contents.plan catalog.locales keys).locales.drop n).forM
      fun plan => catalog.saveStore plan.locale plan.store) stopped = (.ok (), between) ∧
    runIn ((contents.plan catalog.locales keys).writeBatch catalog) between =
      (.ok outcome, after) := by
  obtain ⟨between, outcome, hwrite, hbatch, -⟩ := (synchronize_eq_ok hloads).1 h
  have hparts : (contents.plan catalog.locales keys).locales =
      (contents.plan catalog.locales keys).locales.take n ++
        (contents.plan catalog.locales keys).locales.drop n := (List.take_append_drop _ _).symm
  unfold Plan.writeStores at hwrite
  rw [hparts] at hwrite
  obtain ⟨stopped, hfirst, hrest⟩ := FileAction.run_forM_append_eq_ok.1 hwrite
  exact ⟨stopped, between, outcome, hfirst, hrest, hbatch⟩

/-- A run that is stopped when the stores of the first locales were written is interrupted. -/
theorem interrupted_take (hapart : catalog.Apart before.current) {n : Nat}
    (hfirst : runIn (((contents.plan catalog.locales keys).locales.take n).forM
      fun plan => catalog.saveStore plan.locale plan.store) before = (.ok (), stopped))
    (hrest : runIn (((contents.plan catalog.locales keys).locales.drop n).forM
      fun plan => catalog.saveStore plan.locale plan.store) stopped = (.ok (), between))
    {outcome : BatchOutcome}
    (hbatch : runIn ((contents.plan catalog.locales keys).writeBatch catalog) between =
      (.ok outcome, after)) :
    catalog.Interrupted (catalog.locales.locales.take n) before after stopped := by
  have hheld := (holds_of_synchronize hapart hloads h).1
  have hnodup : (((contents.plan catalog.locales keys).locales.take n).map (·.locale)).Nodup := by
    rw [List.map_take, map_locale_plan]
    exact catalog.locales.nodup.sublist (List.take_sublist _ _)
  have hlocales : ∀ plan ∈ (contents.plan catalog.locales keys).locales.take n,
      plan.locale ∈ catalog.locales.locales := fun plan hplan =>
    mem_locales_of_mem_plan (List.mem_of_mem_take hplan)
  have hwritten := (within_writeStores hapart hlocales).changed hfirst
  rw [List.map_take, map_locale_plan] at hwritten
  have hread : ∀ locale ∈ catalog.locales.locales.take n,
      stopped.readBytes (catalog.storePath locale) =
        .ok ((contents.synchronized catalog.locales keys).stores locale).write.toUTF8 := by
    intro locale hlocale
    refine readBytes_of_writeStores hapart hlocales hnodup hfirst
      (LocalePlan.make catalog.locales keys (contents.batch.getD ∅) locale (contents.stores locale)) ?_
    unfold Contents.plan
    rw [← List.map_take]
    exact List.mem_map_of_mem hlocale
  -- what is left of the run
  have hcurrent := hwritten.current
  have hlater := changed_of_forM (hcurrent ▸ hapart)
    (fun plan hplan => mem_locales_of_mem_plan (List.mem_of_mem_drop hplan)) hrest
  have hlast := ((within_writeBatch (hlater.current ▸ hcurrent ▸ hapart) _).changed hbatch).mono
    Catalog.batchPlace_subset_places Catalog.batchPlace_subset_places
  rw [hlater.current] at hlast
  have hfollowing := hlater.trans hlast
  rw [hcurrent] at hfollowing
  have hheeded : Heeded before stopped := (moves_writeStores catalog _).of_run hfirst
  exact hapart.interrupted (List.take_subset _ _)
    (hwritten.mono (le_refl _) (Catalog.storePlaces_subset_places (List.take_subset _ _))) hfollowing
    (fun locale hlocale =>
      ⟨_, hread locale hlocale, hheld.stores locale (List.mem_of_mem_take hlocale)⟩)
    hheeded.noStricter

end Run

section Resumed

variable {disk : Disk} (hapart : catalog.Apart disk.current) (hloads : catalog.Loads disk contents)
  {report : Report} (h : runIn (synchronize catalog keys) disk = (.ok report, after))

include hapart hloads h

/-- Where the run was interrupted, the batch is what it was. -/
theorem entryAt_batch_of_interrupted (hwritten : written ⊆ catalog.locales.locales)
    (hstopped : catalog.Interrupted written disk after stopped) :
    stopped.entryAt catalog.batch = disk.entryAt catalog.batch := by
  obtain ⟨hheld, hafter⟩ := holds_of_synchronize hapart hloads h
  refine hstopped.entryAt_eq hapart hafter hwritten Catalog.batch_mem_paths
    (fun locale hlocale => hapart.storePath_ne_batch (hwritten hlocale)) hloads.batch ?_
  have hend := hheld.batch
  cases hbatch : (contents.synchronized catalog.locales keys).batch with
  | none =>
    rw [hbatch] at hend
    exact .inr hend
  | some batch =>
    rw [hbatch, Catalog.HoldsBatch, Workspace.readBytes_eq_ok, ← Workspace.entryAt_eq_ok] at hend
    exact .inl ⟨_, hend⟩

/-- Where the run was interrupted, a store that was not written is what it was. -/
theorem entryAt_store_of_interrupted (hwritten : written ⊆ catalog.locales.locales)
    (hstopped : catalog.Interrupted written disk after stopped) {locale : String}
    (hlocale : locale ∈ catalog.locales.locales) (hunwritten : locale ∉ written) :
    stopped.entryAt (catalog.storePath locale) = disk.entryAt (catalog.storePath locale) := by
  obtain ⟨hheld, hafter⟩ := holds_of_synchronize hapart hloads h
  obtain ⟨value, hvalue, -⟩ := bind_eq_ok.1 (hloads.store locale hlocale)
  have hend := hheld.stores locale hlocale
  rw [Workspace.readBytes_eq_ok, ← Workspace.entryAt_eq_ok] at hend
  refine hstopped.entryAt_eq hapart hafter hwritten (Catalog.storePath_mem_paths hlocale)
    (fun other hother => ?_) hvalue (.inl ⟨_, hend⟩)
  exact hapart.storePath_ne (hwritten hother) hlocale fun heq => hunwritten (heq ▸ hother)

/-- From where the run was interrupted, the files load as the contents midway. -/
theorem loads_midway (hwritten : written ⊆ catalog.locales.locales)
    (hstopped : catalog.Interrupted written disk after stopped) :
    catalog.Loads stopped (contents.midway catalog.locales keys written) := by
  have hheld := (holds_of_synchronize hapart hloads h).1
  constructor
  case store =>
    intro locale hlocale
    show _ = Except.ok (if locale ∈ written then _ else _)
    split
    · rename_i hmem
      rw [← hheld.stores.loadStore hlocale]
      exact Catalog.loadStore_of_entryAt (hstopped.stores locale hmem)
    · rename_i hmem
      rw [← hloads.store locale hlocale]
      exact Catalog.loadStore_of_entryAt
        (entryAt_store_of_interrupted hapart hloads h hwritten hstopped hlocale hmem)
  case batch =>
    show readFile _ _ _ = _
    rw [readFile_of_entryAt
      (entryAt_batch_of_interrupted hapart hloads h hwritten hstopped)]
    exact hloads.batch

/-- From where the run was interrupted, all that is planned can be written. -/
theorem exists_run_synchronize_midway (hwritten : written ⊆ catalog.locales.locales)
    (hstopped : catalog.Interrupted written disk after stopped) :
    ∃ report again, runIn (synchronize catalog keys) stopped = (.ok report, again) := by
  obtain ⟨hheld, hafter⟩ := holds_of_synchronize hapart hloads h
  have hheeded : Heeded disk after := (moves_synchronize catalog keys).of_run h
  have haccepted := acceptedFor_of_synchronize hloads h
  have hcurrent := hstopped.changed.current
  have hapart' : catalog.Apart stopped.current := hcurrent ▸ hapart
  have hmidway := loads_midway hapart hloads h hwritten hstopped
  have hlocales : ∀ plan ∈ (contents.plan catalog.locales keys).locales,
      plan.locale ∈ catalog.locales.locales := fun _ => mem_locales_of_mem_plan
  have hnodup : ((contents.plan catalog.locales keys).locales.map (·.locale)).Nodup := by
    rw [map_locale_plan]
    exact catalog.locales.nodup
  -- the stores
  obtain ⟨between, hwrite⟩ := exists_run_writeStores hapart' hlocales hnodup fun plan hplan => by
    obtain ⟨value, hvalue, -⟩ := bind_eq_ok.1 (hloads.store _ (hlocales plan hplan))
    exact hstopped.isOpen hapart hafter hwritten hheeded
      (Catalog.storePath_mem_paths (hlocales plan hplan)) hvalue
      (haccepted.store _ (hlocales plan hplan)) (hheld.stores _ (hlocales plan hplan))
  have hchanged := (within_writeStores hapart' hlocales).changed hwrite
  rw [map_locale_plan, hcurrent] at hchanged
  have hread : ∀ locale ∈ catalog.locales.locales, between.readBytes (catalog.storePath locale) =
      .ok ((contents.synchronized catalog.locales keys).stores locale).write.toUTF8 :=
    fun locale hlocale => readBytes_of_writeStores hapart' hlocales hnodup hwrite
      (LocalePlan.make catalog.locales keys (contents.batch.getD ∅) locale (contents.stores locale))
      (List.mem_map_of_mem hlocale)
  -- now the run is one that was interrupted before the batch
  have hall : written ++ catalog.locales.locales ⊆ catalog.locales.locales :=
    List.append_subset.2 ⟨hwritten, List.Subset.refl _⟩
  have hstricter : NoStricter stopped between :=
    Heeded.noStricter ((moves_writeStores catalog _).of_run hwrite)
  have hbetween : catalog.Interrupted (written ++ catalog.locales.locales) disk after between :=
    hstopped.of_changed hapart hafter hwritten (List.Subset.refl _) hchanged
      (fun locale hlocale => ⟨_, hread locale (hall hlocale), hheld.stores locale (hall hlocale)⟩)
      hstricter
  have hsame := entryAt_batch_of_interrupted hapart hloads h hall hbetween
  have hfound : (∃ bytes, between.readBytes catalog.batch = .ok bytes ∧
      between.Accepts catalog.batch) ∨ between.entryAt catalog.batch = .error .notFound := by
    rw [hsame]
    refine (entryAt_of_readFile hloads.batch).imp_left fun hthere => ?_
    obtain ⟨bytes, hbytes⟩ := hthere
    refine ⟨bytes, (Workspace.readBytes_congr hsame).trans hbytes, ?_⟩
    exact hbetween.noStricter.accepts (accepts_batch_of_synchronize hapart hloads h hbytes)
  have hopen : ∀ batch,
      ((contents.midway catalog.locales keys written).plan catalog.locales keys).batch? =
        some batch → between.Open catalog.batch := by
    intro batch hsome
    rw [Contents.batch?_plan_midway] at hsome
    have hend := hheld.batch
    rw [show (contents.synchronized catalog.locales keys).batch = some batch from hsome] at hend
    exact hbetween.isOpen hapart hafter hall hheeded Catalog.batch_mem_paths hloads.batch
      (haccepted.batch (ne_of_eq_of_ne hsome nofun)) hend
  obtain ⟨outcome, again, hbatch⟩ :=
    exists_run_writeBatch (hbetween.changed.current ▸ hapart) hopen hfound
  refine ⟨_, again, (synchronize_eq_ok hmidway).2 ⟨between, outcome, ?_, hbatch, rfl⟩⟩
  unfold Plan.writeStores
  rw [Contents.locales_plan_midway]
  exact hwrite

end Resumed

/-! ## 4. Stopped and started again -/

/-- A synchronization can be stopped after any of its stores, and started again. -/
structure Restartable (catalog : Catalog) (keys : KeySet) (before after : Workspace) : Prop where
  /-- The run first writes the stores of any number of locales, in their order. Stopped there, it has
      written these and is interrupted; the other files are found as they were. -/
  stops : ∀ n, ∃ plan stopped, Plan.make catalog keys before = .ok plan ∧
    runIn ((plan.locales.take n).forM fun plan => catalog.saveStore plan.locale plan.store) before =
      (.ok (), stopped) ∧
    catalog.Interrupted (catalog.locales.locales.take n) before after stopped ∧
    ∀ path ∈ catalog.paths,
      (∀ locale ∈ catalog.locales.locales.take n, catalog.storePath locale ≠ path) →
        stopped.entryAt path = before.entryAt path
  /-- From wherever the run was interrupted, another one with the keys succeeds, and each file is the
      one that the run would have made of it. -/
  resumes : ∀ (written : List String) (stopped : Workspace),
    written ⊆ catalog.locales.locales → catalog.Interrupted written before after stopped →
      ∃ report again, runIn (synchronize catalog keys) stopped = (.ok report, again) ∧
        ∀ path ∈ catalog.paths, again.entryAt path = after.entryAt path

/-- A synchronization that succeeds could have been stopped after any of its stores. -/
theorem restartable_of_synchronize {disk : Disk} {report : Report}
    (hapart : catalog.Apart disk.current)
    (h : runIn (synchronize catalog keys) disk = (.ok report, after)) :
    Restartable catalog keys disk after := by
  obtain ⟨contents, hloads⟩ := exists_loads_of_synchronize h
  obtain ⟨hheld, hafter⟩ := holds_of_synchronize hapart hloads h
  constructor
  case stops =>
    intro n
    obtain ⟨stopped, between, outcome, hfirst, hrest, hbatch⟩ := exists_run_take hloads h n
    have hstopped := interrupted_take hloads h hapart hfirst hrest hbatch
    have hwritten := List.take_subset n catalog.locales.locales
    refine ⟨_, stopped, Plan.make_of_loads hloads keys, hfirst, hstopped, ?_⟩
    intro path hpath hunwritten
    rcases List.mem_cons.1 hpath with rfl | hstore
    · exact entryAt_batch_of_interrupted hapart hloads h hwritten hstopped
    · obtain ⟨locale, hlocale, rfl⟩ := List.mem_map.1 hstore
      exact entryAt_store_of_interrupted hapart hloads h hwritten hstopped hlocale
        fun hmem => hunwritten locale hmem rfl
  case resumes =>
    intro written stopped hwritten hstopped
    have hmidway := loads_midway hapart hloads h hwritten hstopped
    obtain ⟨report', again, hrun⟩ :=
      exists_run_synchronize_midway hapart hloads h hwritten hstopped
    have hagain := (holds_of_synchronize (hstopped.changed.current ▸ hapart) hmidway hrun).1
    rw [Contents.synchronized_midway] at hagain
    exact ⟨report', again, hrun,
      Catalog.entryAt_eq_of_holds hagain hheld (fun _ _ => rfl) rfl⟩

/-- The example can be stopped and started again. -/
theorem restartable_sample : Restartable .sample (.ofList ["b", "c"]) Disk.sample
    (runIn (synchronize .sample (.ofList ["b", "c"])) Disk.sample).2 := by
  obtain ⟨report, h⟩ := FileAction.exists_of_isOk (synchronize .sample (.ofList ["b", "c"]))
    Disk.sample (by decide +kernel)
  exact restartable_of_synchronize Catalog.apart_sample h

end Sync

end LocaleCatalog
