import LocaleCatalog.Proofs.History.Basic

/-!
# The stores and the sources stay together

Whatever happens to a catalog after a synchronization that succeeded, its stores hold exactly the
keys of the last such synchronization, and as long as the program itself wrote the batch last, the
batch asks for nothing else. The batch may be edited into anything in between: a merge checks it
against the canonical store, and a synchronization rebuilds every store.

* `Past` is what the events of a history leave to remember: the keys of the last synchronization
  that succeeded, and whether the batch was edited since the program wrote it;
* `Aligned` says that the stores have exactly the keys, `Batch.AsksWithin` that the batch names
  nothing but translated locales and the keys;
* `Consistent.leads` shows that each event preserves both, and `consistent_of_history` that they
  hold after any number of events.
-/

namespace LocaleCatalog

open FileAction (runIn)
open Workspace (Changed Kept)

/-! ## 1. What is asked of the files -/

/-- What there is to remember of the events so far. -/
structure Past where
  /-- The keys of the last synchronization that succeeded. -/
  keys : Option KeySet
  /-- The program was the last to write the batch, or to take it away. -/
  own : Bool

/-- What there is to remember after one more event. -/
def Past.after (past : Past) : Event → Past
  | .synchronized keys (.ok _) => ⟨some keys, true⟩
  | .synchronized _ (.error _) => past
  | .merged (.ok _) => { past with own := true }
  | .merged (.error _) => past
  | .inspected .. => past
  | .edited => { past with own := false }
  | .restricted => past

/-- What there is to remember of a history. -/
def Past.ofSteps (steps : List Step) : Past :=
  (steps.map (·.event)).foldl Past.after ⟨none, false⟩

/-- A synchronization that failed did so before it wrote anything. -/
def Step.AllOrNothing (step : Step) : Prop :=
  ∀ keys error, step.event = .synchronized keys (.error error) → step.after = step.before

/-- Every store can be read and has exactly the keys, and the canonical one maps each to itself. -/
structure Aligned (catalog : Catalog) (keys : KeySet) (workspace : Workspace) : Prop where
  canonical : ∃ store,
    readFile Messages.reader (catalog.storePath catalog.locales.canonical) workspace =
      .ok (some store) ∧ ∀ key, store[key]? = if key ∈ keys then some key else none
  others : ∀ locale ∈ catalog.locales, locale ≠ catalog.locales.canonical → ∃ store,
    readFile Messages.reader (catalog.storePath locale) workspace = .ok (some store) ∧
      ∀ key, key ∈ store ↔ key ∈ keys

/-- The files go with the keys. Unless it was edited, the batch does, too, if there is one. -/
structure Consistent (catalog : Catalog) (keys : KeySet) (own : Bool) (workspace : Workspace) :
    Prop where
  stores : Aligned catalog keys workspace
  batch : own = true → ∃ found, catalog.loadBatch workspace = .ok found ∧
    ∀ batch, found = some batch → batch.AsksWithin catalog.locales keys

variable {catalog : Catalog} {keys : KeySet} {own : Bool} {start before after last : Workspace}
  {event : Event} {past : Past}

/-! ## 2. Synchronizations -/

/-- The stores that a synchronization writes have its keys. -/
theorem Catalog.HoldsStores.aligned {contents : Contents}
    (h : catalog.HoldsStores after (contents.synchronized catalog.locales keys).stores) :
    Aligned catalog keys after := by
  constructor
  case canonical =>
    refine ⟨_, h.readFile catalog.locales.canonical_mem, fun key => ?_⟩
    have hkey := Sync.getElem?_rebuild keys (contents.stores catalog.locales.canonical) true key
    rw [if_pos rfl] at hkey
    show (Sync.rebuild _ _ (decide _))[key]? = _
    rwa [decide_eq_true rfl]
  case others =>
    intro locale hlocale hother
    exact ⟨_, h.readFile hlocale, fun key => Sync.mem_rebuild⟩

/-- A synchronization that succeeds makes the files go with its keys. -/
theorem consistent_of_synchronize {report : Sync.Report} (hapart : catalog.Apart before.current)
    (h : runIn (Sync.synchronize catalog keys) before = (.ok report, after)) :
    Consistent catalog keys own after := by
  obtain ⟨contents, hloads⟩ := Sync.exists_loads_of_synchronize h
  obtain ⟨hholds, -⟩ := Sync.holds_of_synchronize hapart hloads h
  refine ⟨hholds.stores.aligned, fun _ => ⟨_, hholds.batch.loadBatch, fun batch hbatch => ?_⟩⟩
  unfold Contents.synchronized Sync.Plan.batch? at hbatch
  dsimp only at hbatch
  split at hbatch
  · cases hbatch
  · cases hbatch
    exact Contents.asksWithin_batch_plan

/-! ## 3. Merges -/

namespace Aligned

/-- Stores that are kept stay as they are. -/
theorem of_kept (h : Aligned catalog keys before)
    (hkept : ∀ locale ∈ catalog.locales.locales, Kept (catalog.storePath locale) before after) :
    Aligned catalog keys after := by
  constructor
  case canonical =>
    obtain ⟨store, hread, htexts⟩ := h.canonical
    exact ⟨store, readFile_of_kept hread (hkept _ catalog.locales.canonical_mem), htexts⟩
  case others =>
    intro locale hlocale hother
    obtain ⟨store, hread, hkeys⟩ := h.others locale hlocale hother
    exact ⟨store, readFile_of_kept hread (hkept locale hlocale), hkeys⟩

/-- The keys of a batch that can be merged are keys of the canonical store. -/
theorem asksWithin (h : Aligned catalog keys before) {canonical : Messages} {batch : Batch}
    (hmergeable : Merge.Mergeable catalog before canonical batch) :
    batch.AsksWithin catalog.locales keys := by
  obtain ⟨store, hread, htexts⟩ := h.canonical
  have hcanonical := hmergeable.loadCanonical
  rw [Catalog.loadStore_of_readFile hread] at hcanonical
  cases hcanonical
  intro locale entries hentries
  obtain ⟨hlocale, hother, hknown⟩ := hmergeable.entries hentries
  refine ⟨hlocale, hother, fun key hkey => ?_⟩
  obtain ⟨text, htext⟩ := mem_iff_exists_getElem?.1 hkey
  exact (Sync.mem_iff_of_getElem? htexts key).1 (hknown key text htext).1

/-- A merge adds no key and takes none away, however it ends. -/
theorem merge (h : Aligned catalog keys before) (hapart : catalog.Apart before.current)
    {result : Except Merge.Error Merge.Report}
    (hmerge : runIn (Merge.merge catalog) before = (result, after)) :
    Aligned catalog keys after := by
  constructor
  case canonical =>
    obtain ⟨store, hread, htexts⟩ := h.canonical
    refine ⟨store, ?_, htexts⟩
    rcases Merge.stores_of_merge hapart hmerge catalog.locales.canonical_mem with
      hkept | ⟨_, batch, entries, _, hmergeable, hentries, -⟩
    · exact readFile_of_kept hread hkept
    · exact absurd rfl (hmergeable.entries hentries).2.1
  case others =>
    intro locale hlocale hother
    obtain ⟨store, hread, hkeys⟩ := h.others locale hlocale hother
    rcases Merge.stores_of_merge hapart hmerge hlocale with
      hkept | ⟨_, batch, entries, prior, hmergeable, hentries, hload, hwritten⟩
    · exact ⟨store, readFile_of_kept hread hkept, hkeys⟩
    · rw [Catalog.loadStore_of_readFile hread] at hload
      cases hload
      refine ⟨_, readFile_messages hwritten, fun key => ?_⟩
      have hwithin := (h.asksWithin hmergeable locale entries hentries).2.2
      rw [Std.ExtTreeMap.mem_iff_isSome_getElem?,
        Merge.getElem?_applyEntries (hmergeable.not_blank hentries),
        Option.isSome_or, Bool.or_eq_true, ← Std.ExtTreeMap.mem_iff_isSome_getElem?,
        ← Std.ExtTreeMap.mem_iff_isSome_getElem?, hkeys]
      exact or_iff_right_of_imp (hwithin key)

end Aligned

/-- What remains of a batch asks for nothing more. -/
theorem Batch.AsksWithin.remaining {batch : Batch} {locales : LocaleSet}
    (h : batch.AsksWithin locales keys) (failures : Merge.Failures) :
    (Merge.remaining batch failures).AsksWithin locales keys := by
  intro locale entries hentries
  rw [Merge.getElem?_remaining] at hentries
  split at hentries
  · exact h locale entries hentries
  · cases hentries

/-- After a merge, the batch goes with the keys: it did before, or was checked to. -/
theorem Consistent.merge {result : Except Merge.Error Merge.Report}
    (h : Consistent catalog keys own before) (hapart : catalog.Apart before.current)
    (hmerge : runIn (Merge.merge catalog) before = (result, after)) :
    Consistent catalog keys (own || result.isOk) after := by
  refine ⟨h.stores.merge hapart hmerge, fun hown => ?_⟩
  cases result with
  | error error =>
    rw [Merge.loadBatch_of_merge_error hapart hmerge]
    exact h.batch (by simpa [Except.isOk, Except.toBool] using hown)
  | ok report =>
    obtain ⟨canonical, batch, hmergeable, hnone | hrest⟩ := Merge.loadBatch_of_merge hapart hmerge
    · exact ⟨none, hnone, fun batch hbatch => by cases hbatch⟩
    · refine ⟨_, hrest, fun rest hsome => ?_⟩
      cases hsome
      exact (h.stores.asksWithin hmergeable).remaining _

/-! ## 4. Histories -/

/-- Each event leaves the files consistent, if they were so before. -/
theorem Consistent.leads (hapart : catalog.Apart before.current)
    (hleads : event.Leads catalog before after)
    (hwhole : Step.AllOrNothing ⟨before, event, after⟩)
    (h : ∀ keys, past.keys = some keys → Consistent catalog keys past.own before) :
    ∀ keys, (past.after event).keys = some keys →
      Consistent catalog keys (past.after event).own after := by
  intro keys hkeys
  cases event with
  | synchronized wanted result =>
    cases result with
    | ok report =>
      cases hkeys
      exact consistent_of_synchronize hapart hleads
    | error error =>
      have hsame : after = before := hwhole wanted error rfl
      rw [hsame]
      exact h keys hkeys
  | merged result =>
    cases result with
    | ok report =>
      have hmerged : Consistent catalog keys (past.own || true) after :=
        (h keys hkeys).merge hapart hleads
      rw [Bool.or_true] at hmerged
      exact hmerged
    | error error =>
      have hmerged : Consistent catalog keys (past.own || false) after :=
        (h keys hkeys).merge hapart hleads
      rw [Bool.or_false] at hmerged
      exact hmerged
  | inspected options result =>
    rw [eq_of_projectStatus hleads]
    exact h keys hkeys
  | edited =>
    have hstores := (h keys hkeys).stores
    refine ⟨hstores.of_kept fun locale hlocale => ?_, fun hown => by cases hown⟩
    exact hapart.kept_of_changed_batch hlocale hleads
  | restricted =>
    have hstores := (h keys hkeys).stores
    refine ⟨hstores.of_kept fun locale hlocale => ?_, fun hown => ?_⟩
    · exact hapart.kept_of_changed_batch hlocale
        (Changed.mono hleads (Set.empty_subset _) (Set.empty_subset _))
    · have hbatch : catalog.loadBatch after = catalog.loadBatch before :=
        readFile_congr (Workspace.readBytes_congr (Changed.entryAt_of_empty hleads))
      rw [hbatch]
      exact (h keys hkeys).batch hown

theorem Past.ofSteps_append (steps : List Step) (step : Step) :
    Past.ofSteps (steps ++ [step]) = (Past.ofSteps steps).after step.event := by
  unfold Past.ofSteps
  rw [List.map_append, List.foldl_append]
  rfl

/-- After any sequence of synchronizations, merges, looks and edits of the batch, the files go with
    the keys of the last synchronization that succeeded. -/
theorem consistent_of_history {steps : List Step} (hapart : catalog.Apart start.current)
    (h : History catalog start steps last) (hwhole : ∀ step ∈ steps, step.AllOrNothing)
    (hkeys : (Past.ofSteps steps).keys = some keys) :
    Consistent catalog keys (Past.ofSteps steps).own last := by
  -- every state is one in which the files go with what there is to remember so far
  induction h generalizing keys with
  | start => cases hkeys
  | @step steps before after event hbefore hleads ih =>
    have hearlier : ∀ step ∈ steps, step.AllOrNothing :=
      fun step hstep => hwhole step (List.mem_append_left _ hstep)
    have hnew := hwhole _ (List.mem_append_right _ List.mem_cons_self)
    rw [Past.ofSteps_append] at hkeys ⊢
    exact Consistent.leads (hbefore.apart hapart) hleads hnew (fun _ hold => ih hearlier hold) keys
      hkeys

/-- In the example, the batch is filled in by hand, and then merged. -/
theorem consistent_sample : ∃ steps last, History .sample .sample steps last ∧
    steps.length = 3 ∧ Consistent .sample (.ofList ["b", "c"]) true last := by
  obtain ⟨synced, merged, filled, edited, last, hhistory⟩ := History.exists_sample
  refine ⟨_, last, hhistory, rfl,
    consistent_of_history Catalog.apart_sample hhistory ?_ rfl⟩
  -- none of its synchronizations fails
  intro step hstep keys error hfailed
  simp only [List.mem_cons, List.not_mem_nil, or_false] at hstep
  rcases hstep with rfl | rfl | rfl <;> cases hfailed

end LocaleCatalog
