import LocaleCatalog.Proofs.Merge.Completion
import LocaleCatalog.Proofs.Sync.Absorption
import LocaleCatalog.Proofs.Sync.Run

/-!
# The cycle comes to an end

A synchronization writes a batch, somebody fills it in, a merge puts the texts into the stores. What
the first asks for is what the second wants, so that after one cycle nothing is left to do:

* `Batch.Fills` says that a batch is another one with all its texts filled in;
* `Contents.settled_refill`: a synchronization keeps a batch that was filled in, so it does not
  matter how many come before the merge (`Sync.Ready.exists_run_synchronizeTimes`);
* `Contents.settled_complete`: once the texts are in the stores, a synchronization has nothing to do;
* `Sync.converged_of_synchronize` puts this together for the whole cycle.
-/

namespace LocaleCatalog

open FileAction (runIn)
open Workspace (Changed Heeded NoStricter)
open Sync

/-! ## 1. Filled batches -/

/-- A batch with the same locales and keys as another one, and with a text for each of them. -/
structure Batch.Fills (filled batch : Batch) : Prop where
  locales : ∀ locale, locale ∈ filled ↔ locale ∈ batch
  keys : ∀ (locale : String) (entries asked : Messages), filled[locale]? = some entries →
    batch[locale]? = some asked → ∀ key, key ∈ entries ↔ key ∈ asked
  texts : ∀ (locale : String) (entries : Messages), filled[locale]? = some entries →
    ∀ key text : String, entries[key]? = some text → ¬ Text.Blank text

/-- Every batch can be filled in. -/
theorem Batch.exists_fills (batch : Batch) : ∃ filled : Batch, filled.Fills batch := by
  refine ⟨batch.map fun _ entries => entries.map fun _ _ => "…", fun locale => ?_, ?_, ?_⟩
  · exact Std.ExtTreeMap.mem_map
  · intro locale entries asked hentries hasked key
    rw [Std.ExtTreeMap.getElem?_map, hasked, Option.map_some, Option.some_inj] at hentries
    rw [← hentries]
    exact Std.ExtTreeMap.mem_map
  · intro locale entries hentries key text htext
    rw [Std.ExtTreeMap.getElem?_map, Option.map_eq_some_iff] at hentries
    obtain ⟨asked, -, rfl⟩ := hentries
    rw [Std.ExtTreeMap.getElem?_map, Option.map_eq_some_iff] at htext
    obtain ⟨old, -, rfl⟩ := htext
    decide

namespace Batch.Fills

variable {filled batch : Batch} {locale : String}

/-- The entries of a locale are entries for what was asked for. -/
theorem exists_asked (h : filled.Fills batch) {entries : Messages}
    (hentries : filled[locale]? = some entries) :
    ∃ asked, batch[locale]? = some asked ∧ ∀ key, key ∈ entries ↔ key ∈ asked := by
  have hmem := (h.locales locale).1 (mem_iff_exists_getElem?.2 ⟨entries, hentries⟩)
  obtain ⟨asked, hasked⟩ := mem_iff_exists_getElem?.1 hmem
  exact ⟨asked, hasked, h.keys locale entries asked hentries hasked⟩

/-- For what was asked for there are entries. -/
theorem exists_entries (h : filled.Fills batch) {asked : Messages}
    (hasked : batch[locale]? = some asked) :
    ∃ entries, filled[locale]? = some entries ∧ ∀ key, key ∈ entries ↔ key ∈ asked := by
  have hmem := (h.locales locale).2 (mem_iff_exists_getElem?.2 ⟨asked, hasked⟩)
  obtain ⟨entries, hentries⟩ := mem_iff_exists_getElem?.1 hmem
  exact ⟨entries, hentries, h.keys locale entries asked hentries hasked⟩

/-- A batch that was filled in asks for no more than before. -/
theorem asksWithin (h : filled.Fills batch) {locales : LocaleSet} {keys : KeySet}
    (hbatch : batch.AsksWithin locales keys) : filled.AsksWithin locales keys := by
  intro locale entries hentries
  obtain ⟨asked, hasked, hkeys⟩ := h.exists_asked hentries
  obtain ⟨hlocale, hother, hwithin⟩ := hbatch locale asked hasked
  exact ⟨hlocale, hother, fun key hkey => hwithin key ((hkeys key).1 hkey)⟩

/-- It holds no blank text. -/
theorem not_blank (h : filled.Fills batch) {key text : String}
    (hheld : heldText (some filled) locale key = some text) : ¬ Text.Blank text := by
  rw [heldText_eq, Option.getD_some] at hheld
  cases hentries : filled[locale]? with
  | some entries =>
    rw [hentries, Option.getD_some] at hheld
    exact h.texts locale entries hentries key text hheld
  | none =>
    rw [hentries, Option.getD_none, Std.ExtTreeMap.getElem?_empty] at hheld
    cases hheld

end Batch.Fills

/-- Entries with a text for exactly the keys that are to be translated are carried over as they
    are. -/
theorem Sync.carriedEntries_eq_self {entries : Messages} {pending : List String}
    (hkeys : ∀ key, key ∈ entries ↔ key ∈ pending)
    (htexts : ∀ key text : String, entries[key]? = some text → ¬ Text.Blank text) :
    carriedEntries entries pending = entries := by
  refine Std.ExtTreeMap.ext_getElem? fun key => Option.ext fun text => ?_
  rw [carriedEntries_eq_some_iff, ← hkeys, Std.ExtTreeMap.mem_iff_isSome_getElem?]
  unfold carriedText Messages.textOf
  cases hentry : entries[key]? with
  | none => simp
  | some found =>
    have hsome := htexts key found hentry
    rw [Option.getD_some, if_neg hsome, Option.some_inj, Option.isSome_some, and_iff_right rfl]
    exact eq_comm

/-- A store with exactly the keys is rebuilt as it is. -/
theorem Sync.rebuild_eq_self {store : Messages} {keys : KeySet}
    (h : ∀ key, key ∈ store ↔ key ∈ keys) : rebuild keys store false = store := by
  refine Std.ExtTreeMap.ext_getElem? fun key => ?_
  rw [getElem?_rebuild, if_neg Bool.false_ne_true]
  unfold Messages.textOf
  by_cases hkey : key ∈ keys
  · obtain ⟨text, htext⟩ := mem_iff_exists_getElem?.1 ((h key).2 hkey)
    rw [if_pos hkey, htext]
    rfl
  · rw [if_neg hkey]
    exact (Std.ExtTreeMap.getElem?_eq_none fun hmem => hkey ((h key).1 hmem)).symm

/-! ## 2. Contents -/

namespace Contents

variable {contents : Contents} {locales : LocaleSet} {keys : KeySet} {filled : Batch}
  {locale key : String}

/-- The contents after a synchronization, with another batch in place of the one it wrote. -/
def refill (contents : Contents) (locales : LocaleSet) (keys : KeySet) (filled : Batch) :
    Contents where
  stores := (contents.synchronized locales keys).stores
  batch := some filled

/-- The contents once the texts of that batch are in the stores. -/
def complete (contents : Contents) (locales : LocaleSet) (keys : KeySet) (filled : Batch) :
    Contents where
  stores locale := Merge.applyEntries ((contents.synchronized locales keys).stores locale)
    (filled[locale]?.getD ∅)
  batch := none

theorem pending_refill :
    (contents.refill locales keys filled).pending locales keys locale =
      contents.pending locales keys locale := by
  unfold pending refill synchronized
  rw [rebuild_rebuild fun _ hkey => hkey]

section Filled

variable (hfills : filled.Fills (contents.plan locales keys).batch)

include hfills

/-- What was filled in are the keys that were to be translated. -/
theorem mem_filled {entries : Messages} (hentries : filled[locale]? = some entries) :
    key ∈ entries ↔ key ∈ contents.pending locales keys locale := by
  obtain ⟨asked, hasked, hkeys⟩ := hfills.exists_asked hentries
  rw [hkeys]
  exact (batch_plan_eq_some hasked).2.2 key

/-- Each of them was filled in. -/
theorem exists_heldText (hlocale : locale ∈ locales.locales)
    (hpending : key ∈ contents.pending locales keys locale) :
    ∃ text, heldText (some filled) locale key = some text := by
  have hasked : (contents.plan locales keys).batch[locale]? = some _ :=
    getElem?_batch_plan.trans (if_pos ⟨hlocale, List.ne_nil_of_mem hpending⟩)
  obtain ⟨entries, hentries, -⟩ := hfills.exists_entries hasked
  have hmem := (mem_filled hfills hentries).2 hpending
  rw [heldText_eq, Option.getD_some, hentries, Option.getD_some]
  exact mem_iff_exists_getElem?.1 hmem

/-- A synchronization leaves a batch as it is that was filled in. -/
theorem batch_plan_refill :
    ((contents.refill locales keys filled).plan locales keys).batch = filled := by
  refine Std.ExtTreeMap.ext_getElem? fun locale => ?_
  rw [getElem?_batch_plan, pending_refill]
  cases hentries : filled[locale]? with
  | some entries =>
    obtain ⟨asked, hasked, -⟩ := hfills.exists_asked hentries
    obtain ⟨hlocale, hpending, -⟩ := batch_plan_eq_some hasked
    rw [if_pos ⟨hlocale, hpending⟩]
    show some (carriedEntries (filled[locale]?.getD ∅) _) = some entries
    rw [hentries, Option.getD_some, carriedEntries_eq_self (fun key => mem_filled hfills hentries)
      (hfills.texts locale entries hentries)]
  | none =>
    refine if_neg fun hpending => ?_
    have hasked : (contents.plan locales keys).batch[locale]? = some _ :=
      getElem?_batch_plan.trans (if_pos hpending)
    obtain ⟨entries, hsome, -⟩ := hfills.exists_entries hasked
    rw [hentries] at hsome
    cases hsome

/-- If something was to be translated, something was filled in. -/
theorem exists_filled (hsome : (contents.plan locales keys).batch ≠ ∅) :
    ∃ (locale : String) (entries : Messages), filled[locale]? = some entries ∧ entries ≠ ∅ := by
  obtain ⟨locale, hmem⟩ : ∃ locale, locale ∈ (contents.plan locales keys).batch := by
    by_contra hnone
    exact hsome (Std.ExtTreeMap.eq_empty_iff_forall_not_mem.2 (not_exists.1 hnone))
  obtain ⟨asked, hasked⟩ := mem_iff_exists_getElem?.1 hmem
  obtain ⟨-, hpending, -⟩ := batch_plan_eq_some hasked
  obtain ⟨key, hkey⟩ := List.exists_mem_of_ne_nil _ hpending
  obtain ⟨entries, hentries, -⟩ := hfills.exists_entries hasked
  refine ⟨locale, entries, hentries, fun hempty => ?_⟩
  have hfilled := (mem_filled hfills hentries).2 hkey
  rw [hempty] at hfilled
  exact Std.ExtTreeMap.not_mem_empty hfilled

/-- So a synchronization has nothing to do with such a batch. -/
theorem settled_refill (hsome : (contents.plan locales keys).batch ≠ ∅) :
    (contents.refill locales keys filled).Settled locales keys := by
  refine ⟨fun locale _ => rebuild_rebuild fun _ hkey => hkey, ?_⟩
  obtain ⟨locale, entries, hentries, -⟩ := exists_filled hfills hsome
  have hfilled : ¬ filled.isEmpty = true := by
    intro hempty
    rw [Std.ExtTreeMap.isEmpty_iff.1 hempty, Std.ExtTreeMap.getElem?_empty] at hentries
    cases hentries
  unfold Plan.batch?
  rw [batch_plan_refill hfills, if_neg hfilled]
  rfl

/-- No text of the batch is for the canonical locale. -/
theorem stores_complete_canonical : (contents.complete locales keys filled).stores
    locales.canonical = (contents.synchronized locales keys).stores locales.canonical := by
  have hnone : filled[locales.canonical]? = none := by
    cases hentries : filled[locales.canonical]? with
    | none => rfl
    | some entries =>
      exact absurd rfl (hfills.asksWithin asksWithin_batch_plan _ entries hentries).2.1
  unfold complete
  dsimp only
  rw [hnone]
  exact Merge.applyEntries_empty _

/-- In any other store, each key has the text that was filled in for it, or the one it had. -/
theorem getElem?_complete (hother : locale ≠ locales.canonical) (key : String) :
    ((contents.complete locales keys filled).stores locale)[key]? =
      if key ∈ keys then
        some ((heldText (some filled) locale key).getD ((contents.stores locale).textOf key))
      else none := by
  have htexts (key text : String) (hentry : (filled[locale]?.getD ∅)[key]? = some text) :
      ¬ Text.Blank text := hfills.not_blank ((heldText_eq _ _ _).trans hentry)
  have hcomplete : ((contents.complete locales keys filled).stores locale)[key]? =
      (filled[locale]?.getD ∅)[key]?.or
        (rebuild keys (contents.stores locale) (locale = locales.canonical))[key]? :=
    Merge.getElem?_applyEntries htexts key
  rw [hcomplete, getElem?_rebuild, decide_eq_false hother, if_neg Bool.false_ne_true, heldText_eq,
    Option.getD_some]
  by_cases hkey : key ∈ keys
  · rw [if_pos hkey, if_pos hkey]
    cases (filled[locale]?.getD ∅)[key]? <;> rfl
  · rw [if_neg hkey, if_neg hkey, Option.or_none]
    cases hentries : filled[locale]? with
    | none => exact Std.ExtTreeMap.getElem?_empty
    | some entries =>
      refine Std.ExtTreeMap.getElem?_eq_none fun hmem => hkey ?_
      exact (mem_pending.1 ((mem_filled hfills hentries).1 hmem)).2.1

/-- No text of these is blank. -/
theorem not_blank_complete (hlocale : locale ∈ locales.locales)
    (hother : locale ≠ locales.canonical) {text : String}
    (htext : ((contents.complete locales keys filled).stores locale)[key]? = some text) :
    ¬ Text.Blank text := by
  rw [getElem?_complete hfills hother] at htext
  split at htext
  · rename_i hkey
    obtain rfl := Option.some.inj htext
    cases hheld : heldText (some filled) locale key with
    | some text => exact hfills.not_blank hheld
    | none =>
      -- a key without a text is one that was to be translated
      intro hblank
      obtain ⟨text, htext⟩ :=
        exists_heldText hfills hlocale (mem_pending.2 ⟨hother, hkey, hblank⟩)
      rw [hheld] at htext
      cases htext
  · cases htext

/-- With all texts in the stores, a synchronization has nothing left to do. -/
theorem settled_complete : (contents.complete locales keys filled).Settled locales keys := by
  constructor
  case stores =>
    intro locale hlocale
    by_cases hcanonical : locale = locales.canonical
    · subst hcanonical
      rw [stores_complete_canonical hfills]
      exact rebuild_rebuild fun _ hkey => hkey
    · rw [decide_eq_false hcanonical]
      exact rebuild_eq_self (mem_iff_of_getElem? (getElem?_complete hfills hcanonical))
  case batch =>
    refine if_pos (Std.ExtTreeMap.isEmpty_iff.2 ?_)
    refine Std.ExtTreeMap.eq_empty_iff_forall_not_mem.2 fun locale hmem => ?_
    obtain ⟨asked, hasked⟩ := mem_iff_exists_getElem?.1 hmem
    obtain ⟨hlocale, hsome, -⟩ := batch_plan_eq_some hasked
    obtain ⟨key, hpending⟩ := List.exists_mem_of_ne_nil _ hsome
    obtain ⟨hother, hkey, hblank⟩ := mem_pending.1 hpending
    have htext := getElem?_complete hfills hother key
    rw [if_pos hkey] at htext
    unfold Messages.textOf at hblank
    rw [htext] at hblank
    exact not_blank_complete hfills hlocale hother htext hblank

end Filled

end Contents

/-! ## 3. Runs -/

namespace Sync

variable {catalog : Catalog} {keys : KeySet} {contents : Contents} {filled : Batch}
  {before written edited workspace : Workspace}

/-- A synchronization that is run so many times, one after the other. -/
def synchronizeTimes (catalog : Catalog) (keys : KeySet) : Nat → FileAction StoreError Unit
  | 0 => return
  | n + 1 => do
    let _ ← synchronize catalog keys
    synchronizeTimes catalog keys n

/-- The stores hold their messages, the batch says what it should, in whatever form, and the disk
    accepts changes of all these files. -/
structure Ready (catalog : Catalog) (workspace : Workspace) (contents : Contents)
    (filled : Batch) : Prop where
  apart : catalog.Apart workspace.current
  stores : catalog.HoldsStores workspace contents.stores
  batch : catalog.loadBatch workspace = .ok (some filled)
  accepted : catalog.Accepted workspace

/-- Where a synchronization has nothing to change, it succeeds and leaves all as it should be. -/
theorem Ready.exists_run_synchronize (h : Ready catalog workspace contents filled)
    (hbatch : contents.batch = some filled) (hsettled : contents.Settled catalog.locales keys) :
    ∃ report after, runIn (synchronize catalog keys) workspace = (.ok report, after) ∧
      Ready catalog after contents filled := by
  have hloads : catalog.Loads workspace contents :=
    ⟨fun _ hlocale => h.stores.loadStore hlocale, hbatch ▸ h.batch⟩
  have hsome : ¬ (contents.plan catalog.locales keys).batch.isEmpty = true := by
    intro hempty
    have hnone := hsettled.batch
    rw [Plan.batch?, if_pos hempty, hbatch] at hnone
    cases hnone
  obtain ⟨bytes, hread⟩ := exists_readBytes_of_readFile h.batch
  obtain ⟨after, hsave⟩ := exists_run_writeFile h.apart.plain_batch hread h.accepted.batch
    (contents.plan catalog.locales keys).batch.write
  have hwrite : runIn ((contents.plan catalog.locales keys).writeBatch catalog) workspace =
      (.ok (.written (contents.plan catalog.locales keys).batch.entryCount
        (contents.plan catalog.locales keys).carried), after) := by
    unfold Plan.writeBatch Catalog.saveBatch
    rw [if_neg hsome, FileAction.run_bind, hsave]
    rfl
  have hrun := (synchronize_eq_ok hloads).2 ⟨workspace, _, run_writeStores_of_settled h.apart
    h.stores (fun _ hlocale => h.accepted.store hlocale) hsettled, hwrite, rfl⟩
  obtain ⟨hholds, hchanged⟩ := holds_of_synchronize h.apart hloads hrun
  have hheeded : Heeded workspace after := (moves_synchronize catalog keys).of_run hrun
  refine ⟨_, after, hrun, ?_, fun locale hlocale => ?_, ?_,
    h.accepted.of_noStricter hheeded.noStricter⟩
  · rw [hchanged.current]
    exact h.apart
  · have hstore := hholds.stores locale hlocale
    rw [← hsettled.stores locale hlocale]
    exact hstore
  · rw [← hbatch, ← hsettled.batch]
    exact hholds.batch.loadBatch

/-- The same holds of any number of synchronizations. -/
theorem Ready.exists_run_synchronizeTimes (h : Ready catalog workspace contents filled)
    (hbatch : contents.batch = some filled) (hsettled : contents.Settled catalog.locales keys)
    (n : Nat) :
    ∃ after, runIn (synchronizeTimes catalog keys n) workspace = (.ok (), after) ∧
      Ready catalog after contents filled := by
  induction n generalizing workspace with
  | zero => exact ⟨workspace, rfl, h⟩
  | succ n ih =>
    obtain ⟨report, between, hfirst, hready⟩ := h.exists_run_synchronize hbatch hsettled
    obtain ⟨after, hmore, hready'⟩ := ih hready
    refine ⟨after, ?_, hready'⟩
    unfold synchronizeTimes
    rw [FileAction.run_bind, hfirst]
    exact hmore

/-- What was asked for and filled in may be merged. -/
theorem Ready.mergeable (h : Ready catalog workspace (contents.refill catalog.locales keys filled)
      filled)
    (hfills : filled.Fills (contents.plan catalog.locales keys).batch) :
    Merge.Mergeable catalog workspace
      ((contents.synchronized catalog.locales keys).stores catalog.locales.canonical) filled := by
  refine ⟨h.batch, h.stores.loadStore catalog.locales.canonical_mem, ?_⟩
  refine Batch.problems_eq_nil_iff.2 fun locale entries hentries => ?_
  obtain ⟨hlocale, hother, hkeys⟩ :=
    hfills.asksWithin Contents.asksWithin_batch_plan locale entries hentries
  refine ⟨hlocale, hother, fun key text hentry => ⟨?_, hfills.texts locale entries hentries key text
    hentry⟩⟩
  rw [← Std.ExtTreeMap.mem_iff_contains]
  exact mem_rebuild.2 (hkeys key (mem_iff_exists_getElem?.2 ⟨text, hentry⟩))

/-! ## 4. The whole cycle -/

/-- Every store but the canonical one has a text for each of the keys: the one that was filled in
    for it, or else the one it had. -/
def Completed (catalog : Catalog) (keys : KeySet) (filled : Batch) (before after : Workspace) :
    Prop :=
  ∀ locale ∈ catalog.locales, locale ≠ catalog.locales.canonical → ∃ prior store,
    catalog.loadStore locale before = .ok prior ∧
    readFile Messages.reader (catalog.storePath locale) after = .ok (some store) ∧
    (∀ key, store[key]? =
      if key ∈ keys then some ((heldText (some filled) locale key).getD (prior.textOf key))
      else none) ∧
    ∀ key text : String, store[key]? = some text → ¬ Text.Blank text

/-- When the batch of a synchronization was filled in, further synchronizations do no harm, a merge
    puts all its texts into the stores and takes it away, and nothing is left to do after that. -/
theorem converged_of_synchronize {report : Report} {batch : Batch}
    (hapart : catalog.Apart before.current)
    (h : runIn (synchronize catalog keys) before = (.ok report, written))
    (hbatch : catalog.loadBatch written = .ok (some batch))
    (hedited : Changed {catalog.batchPlace written.current} {catalog.batchPlace written.current}
      written edited)
    (hnoStricter : NoStricter written edited)
    (hfilled : catalog.loadBatch edited = .ok (some filled)) (hfills : filled.Fills batch)
    (n : Nat) :
    ∃ waiting mergeReport merged again,
      runIn (synchronizeTimes catalog keys n) edited = (.ok (), waiting) ∧
      runIn (Merge.merge catalog) waiting = (.ok mergeReport, merged) ∧
      mergeReport.failures = ∅ ∧ merged.entryAt catalog.batch = .error .notFound ∧
      Completed catalog keys filled before merged ∧
      runIn (synchronize catalog keys) merged = (.ok again, merged) ∧
      again.diff.added = [] ∧ again.diff.removed = [] ∧ again.batch = .upToDate false := by
  obtain ⟨contents, hloads⟩ := exists_loads_of_synchronize h
  obtain ⟨hholds, hchanged⟩ := holds_of_synchronize hapart hloads h
  have hapart' : catalog.Apart written.current := hchanged.current ▸ hapart
  -- the batch is the one that was planned, and holds something
  have hplanned := hholds.batch.loadBatch
  rw [hbatch] at hplanned
  have hasked : (contents.plan catalog.locales keys).batch? = some batch :=
    (Except.ok.inj hplanned).symm
  unfold Plan.batch? at hasked
  split at hasked
  · cases hasked
  rename_i hsome
  obtain rfl := Option.some.inj hasked
  have hne : (contents.plan catalog.locales keys).batch ≠ ∅ :=
    fun hempty => hsome (Std.ExtTreeMap.isEmpty_iff.2 hempty)
  -- the synchronization has written all files, so the disk accepts them
  have hasks : (contents.synchronized catalog.locales keys).batch ≠ none := by
    show (contents.plan catalog.locales keys).batch? ≠ none
    rw [Plan.batch?, if_neg hsome]
    exact Option.some_ne_none _
  have hheeded : Heeded before written := (moves_synchronize catalog keys).of_run h
  have haccepted : catalog.Accepted edited :=
    (((acceptedFor_of_synchronize hloads h).accepted hasks).of_noStricter
      hheeded.noStricter).of_noStricter hnoStricter
  -- a synchronization has nothing to do with the batch that was filled in
  have hready : Ready catalog edited (contents.refill catalog.locales keys filled) filled :=
    ⟨hedited.current ▸ hapart', hholds.stores.of_changed hapart' hedited, hfilled, haccepted⟩
  obtain ⟨waiting, htimes, hready⟩ :=
    hready.exists_run_synchronizeTimes rfl (Contents.settled_refill hfills hne) n
  -- the batch can be merged, and has something in it
  obtain ⟨mergeReport, merged, hmerge, hfailures, hcomplete⟩ :=
    Merge.exists_run_merge hready.apart (hready.mergeable hfills) hready.accepted hready.stores
      (Contents.exists_filled hfills hne)
  have hapart'' : catalog.Apart merged.current :=
    (Merge.changed_of_merge hready.apart hmerge).current ▸ hready.apart
  have hheeded' : Heeded waiting merged := (Merge.moves_merge catalog).of_run hmerge
  have haccepted' := hready.accepted.of_noStricter hheeded'.noStricter
  have hsettled := Contents.settled_complete hfills
  refine ⟨waiting, mergeReport, merged, _, htimes, hmerge, hfailures, hcomplete.batch, ?_,
    run_synchronize_of_settled hapart'' hcomplete haccepted'.acceptedFor hsettled, ?_, ?_, ?_⟩
  · intro locale hlocale hother
    exact ⟨_, _, hloads.store locale hlocale, hcomplete.stores.readFile hlocale,
      Contents.getElem?_complete hfills hother,
      fun key text htext => Contents.not_blank_complete hfills hlocale hother htext⟩
  · exact congrArg KeyDiff.added hsettled.diff_plan
  · exact congrArg KeyDiff.removed hsettled.diff_plan
  · exact Plan.settledOutcome_of_none hsettled.batch

/-- The batch of the example is filled in, and synchronized twice before it is merged. -/
theorem converged_sample : ∃ filled merged,
    Completed .sample (.ofList ["b", "c"]) filled .sample merged ∧
      merged.entryAt Catalog.sample.batch = .error .notFound := by
  let written := (runIn (synchronize .sample (.ofList ["b", "c"])) .sample).2
  let asked : Batch := .ofEntries [("fr", .ofEntries [("b", "B"), ("c", "")])]
  obtain ⟨report, hsync⟩ := FileAction.exists_of_isOk
    (synchronize .sample (.ofList ["b", "c"])) .sample (by decide +kernel)
  have hapart : Catalog.sample.Apart written.current := by decide +kernel
  have hloads : (Catalog.sample.loadBatch written).toOption = some (some asked) := by
    decide +kernel
  have hbatch : Catalog.sample.loadBatch written = .ok (some asked) := by
    cases hload : Catalog.sample.loadBatch written with
    | error error =>
      rw [hload] at hloads
      cases hloads
    | ok found =>
      rw [hload] at hloads
      exact congrArg Except.ok (Option.some.inj hloads)
  obtain ⟨filled, hfills⟩ := asked.exists_fills
  obtain ⟨bytes, hread⟩ := exists_readBytes_of_readFile hbatch
  have haccepts : written.Accepts Catalog.sample.batch := by decide +kernel
  obtain ⟨edited, hsave⟩ := exists_run_writeFile hapart.plain_batch hread haccepts filled.write
  obtain ⟨hchanged, hwritten⟩ := Catalog.saveBatch_spec hapart hsave
  have hheeded : Heeded written edited := (Catalog.sample.moves_saveBatch filled).of_run hsave
  obtain ⟨_, _, merged, _, -, -, -, hgone, hcompleted, -⟩ :=
    converged_of_synchronize Catalog.apart_sample hsync hbatch hchanged hheeded.noStricter
      (readFile_batch hwritten) hfills 2
  exact ⟨filled, merged, hcompleted, hgone⟩

end Sync

end LocaleCatalog
