import Mathlib.Algebra.BigOperators.Group.List.Basic
import Mathlib.Data.List.Nodup
import LocaleCatalog.Proofs.Catalog.Open
import LocaleCatalog.Proofs.Command.Status
import LocaleCatalog.Proofs.Sync.Absorption

/-!
# What a synchronization counts

A synchronization counts keys and texts while it plans, before anything is written. `Sync.Reported`
says that the numbers of its report are those of the files that it leaves, and of the ones before:

* `Sync.KeyDiff.Leads`: the keys that are called new and gone lead from the old keys to the new;
* `Messages.blankCount` and `Messages.textCount` count the texts of a store, `Batch.textCount` those
  of a batch. What the plan counts is as much (`Contents.length_pending`,
  `Contents.entryCount_batch_plan`, `Contents.carried_plan`), since a map that has one value for
  each key of a list has as many of each kind as the list (`toList_perm_of_getElem?`);
* `Sync.removed_iff`: a batch is called stale just if a file was there;
* `Sync.reported_of_synchronize`: so the report tells what is on the disk, and a status right after
  it counts the same.
-/

namespace LocaleCatalog

open FileAction (runIn)
open Workspace (Changed)

/-! ## 1. Sums -/

/-- What counts for nothing can be left out. -/
theorem sum_map_filter {α : Type} {f : α → Nat} {test : α → Bool} {items : List α}
    (h : ∀ a ∈ items, test a = false → f a = 0) :
    ((items.filter test).map f).sum = (items.map f).sum := by
  have hrest : ((items.filter fun a => !test a).map f).sum = 0 := by
    rw [List.sum_eq_zero_iff_forall_eq_nat, List.forall_mem_map]
    intro a ha
    obtain ⟨hmem, hfails⟩ := List.mem_filter.1 ha
    exact h a hmem (by simpa using hfails)
  rw [← ((List.filter_append_perm test items).map f).sum_eq, List.map_append, List.sum_append,
    hrest, Nat.add_zero]

/-! ## 2. Counting the entries of a map -/

/-- A map lists each key once. -/
theorem nodup_map_fst_toList {β : Type} (map : Std.ExtTreeMap String β) :
    (map.toList.map (·.1)).Nodup := by
  rw [Std.ExtTreeMap.map_fst_toList_eq_keys]
  exact Std.ExtTreeMap.nodup_keys

/-- The entries of a map with one value for each key of a list. -/
theorem toList_perm_of_getElem? {β : Type} {map : Std.ExtTreeMap String β} {keys : List String}
    {f : String → β} (hnodup : keys.Nodup)
    (h : ∀ key, map[key]? = if key ∈ keys then some (f key) else none) :
    map.toList.Perm (keys.map fun key => (key, f key)) := by
  have hdistinct : map.toList.Nodup := (nodup_map_fst_toList map).of_map _
  have hdistinct' : (keys.map fun key => (key, f key)).Nodup := by
    refine hnodup.map fun first second heq => ?_
    exact congrArg Prod.fst heq
  refine (List.perm_ext_iff_of_nodup hdistinct hdistinct').2 fun entry => ?_
  obtain ⟨key, value⟩ := entry
  rw [Std.ExtTreeMap.mem_toList_iff_getElem?_eq_some, h, List.mem_map]
  by_cases hkey : key ∈ keys
  · simp [hkey]
  · simp [hkey]

namespace Messages

variable {messages : Messages}

/-- How many texts are blank. -/
def blankCount (messages : Messages) : Nat :=
  messages.toList.countP fun entry => Text.Blank entry.2

/-- How many texts are not blank. -/
def textCount (messages : Messages) : Nat :=
  messages.toList.countP fun entry => ¬ Text.Blank entry.2

theorem length_blankKeys : messages.blankKeys.length = messages.blankCount := by
  unfold blankKeys blankCount
  rw [List.length_map, List.countP_eq_length_filter]

/-- Each text is blank or it is not. -/
theorem blankCount_add_textCount : messages.blankCount + messages.textCount = messages.size := by
  unfold blankCount textCount
  rw [← Std.ExtTreeMap.length_toList,
    List.length_eq_countP_add_countP fun entry : String × String => Text.Blank entry.2]
  simp

end Messages

theorem Batch.entryCount_eq {batch : Batch} :
    batch.entryCount = (batch.toList.map fun entry => entry.2.size).sum := by
  rw [entryCount, Std.ExtTreeMap.foldl_eq_foldl_toList, List.sum_eq_foldl, List.foldl_map]

/-- How many texts of a batch are not blank. -/
def Batch.textCount (batch : Batch) : Nat :=
  (batch.toList.map fun entry => entry.2.textCount).sum

namespace Sync

/-! ## 3. Stores and entries -/

variable {keys : KeySet} {prior previous : Messages} {canonical : Bool} {pending : List String}

/-- The keys of a set, each once. -/
theorem nodup_toList (keys : KeySet) : keys.toList.Nodup := by
  refine Std.ExtTreeSet.distinct_toList.imp fun {first second} hne heq => hne ?_
  rw [heq]
  exact Std.ReflCmp.compare_self

/-- A rebuilt store has as many entries as there are keys. -/
theorem size_rebuild : (rebuild keys prior canonical).size = keys.size := by
  have hperm : (rebuild keys prior canonical).toList.Perm (keys.toList.map fun key =>
      (key, if canonical then key else prior.textOf key)) := by
    refine toList_perm_of_getElem? (nodup_toList keys) fun key => ?_
    rw [getElem?_rebuild]
    exact if_congr Std.ExtTreeSet.mem_toList.symm rfl rfl
  rw [← Std.ExtTreeMap.length_toList, hperm.length_eq, List.length_map,
    Std.ExtTreeSet.length_toList]

/-- What is to be translated, each key once. -/
theorem nodup_pendingKeys {rebuilt : Messages} : (pendingKeys rebuilt canonical).Nodup := by
  unfold pendingKeys
  split
  · exact List.nodup_nil
  · unfold Messages.blankKeys
    exact (nodup_map_fst_toList rebuilt).sublist (List.filter_sublist.map _)

theorem toList_carriedEntries_perm (hnodup : pending.Nodup) :
    (carriedEntries previous pending).toList.Perm
      (pending.map fun key => (key, carriedText previous key)) :=
  toList_perm_of_getElem? hnodup fun key => Messages.getElem?_ofEntries pending _ key

theorem size_carriedEntries (hnodup : pending.Nodup) :
    (carriedEntries previous pending).size = pending.length := by
  rw [← Std.ExtTreeMap.length_toList, (toList_carriedEntries_perm hnodup).length_eq,
    List.length_map]

/-- The texts that were carried over are those that are not blank. -/
theorem filledCount_carriedEntries (hnodup : pending.Nodup) :
    filledCount (carriedEntries previous pending) =
      (carriedEntries previous pending).textCount := by
  unfold filledCount Messages.textCount
  rw [(toList_carriedEntries_perm hnodup).countP_eq, (toList_carriedEntries_perm hnodup).countP_eq,
    List.countP_map, List.countP_map]
  refine List.countP_congr fun key _ => ?_
  have hblank : Text.Blank (carriedText previous key) ↔ carriedText previous key = "" :=
    ⟨carriedText_eq_empty, fun hempty => hempty ▸ by decide⟩
  simp [hblank]

end Sync

/-! ## 4. Plans -/

namespace Contents

open Sync

variable {contents : Contents} {locales : LocaleSet} {keys : KeySet} {locale : String}

theorem nodup_pending : (contents.pending locales keys locale).Nodup :=
  nodup_pendingKeys

/-- What is to be translated is what the rebuilt store has no text for. -/
theorem length_pending : (contents.pending locales keys locale).length =
    if locale = locales.canonical then 0
    else ((contents.synchronized locales keys).stores locale).blankCount := by
  unfold pending pendingKeys
  by_cases hcanonical : locale = locales.canonical
  · rw [if_pos (decide_eq_true hcanonical), if_pos hcanonical]
    rfl
  · rw [if_neg (by simpa using hcanonical), if_neg hcanonical, Messages.length_blankKeys]
    rfl

/-- The entries of a locale in the new batch. -/
def carriedOver (contents : Contents) (locales : LocaleSet) (keys : KeySet) (locale : String) :
    Messages :=
  carriedEntries ((contents.batch.getD ∅)[locale]?.getD ∅) (contents.pending locales keys locale)

theorem size_carriedOver : (contents.carriedOver locales keys locale).size =
    (contents.pending locales keys locale).length :=
  size_carriedEntries nodup_pending

theorem toList_batch_plan_perm : (contents.plan locales keys).batch.toList.Perm
    ((locales.locales.filter fun locale => contents.pending locales keys locale ≠ []).map
      fun locale => (locale, contents.carriedOver locales keys locale)) := by
  refine toList_perm_of_getElem? (locales.nodup.filter _) fun locale => ?_
  rw [getElem?_batch_plan]
  refine if_congr ?_ rfl rfl
  rw [List.mem_filter, decide_eq_true_eq]

/-- A number that is nothing for a locale without entries, over all of the new batch. -/
theorem sum_batch_plan (count : Messages → Nat) (hnone : count ∅ = 0) :
    ((contents.plan locales keys).batch.toList.map fun entry => count entry.2).sum =
      (locales.locales.map fun locale => count (contents.carriedOver locales keys locale)).sum := by
  rw [(toList_batch_plan_perm.map _).sum_eq, List.map_map]
  refine sum_map_filter fun locale _ htest => ?_
  have hpending : contents.pending locales keys locale = [] := by simpa using htest
  show count (carriedEntries _ (contents.pending locales keys locale)) = 0
  rw [hpending]
  exact hnone

/-- The new batch has one entry for each text that is to be translated. -/
theorem entryCount_batch_plan : (contents.plan locales keys).batch.entryCount =
    (locales.locales.map fun locale => (contents.pending locales keys locale).length).sum :=
  Batch.entryCount_eq.trans <| (sum_batch_plan (fun entries => entries.size) rfl).trans
    (congrArg List.sum (List.map_congr_left fun _ _ => size_carriedOver))

/-- What the plan counts as carried over are the texts of the new batch. -/
theorem carried_plan : (contents.plan locales keys).carried =
    (contents.plan locales keys).batch.textCount := by
  refine Eq.trans ?_ (sum_batch_plan Messages.textCount (by decide)).symm
  unfold Plan.carried plan
  rw [← List.foldl_map, ← List.sum_eq_foldl, List.map_map]
  exact congrArg List.sum
    (List.map_congr_left fun _ _ => filledCount_carriedEntries nodup_pending)

end Contents

namespace Sync

/-! ## 5. New keys and keys that are gone -/

/-- The keys after the changes. -/
def KeyDiff.apply (diff : KeyDiff) (keys : KeySet) : KeySet :=
  (keys.insertMany diff.added).filter fun key => !diff.removed.contains key

/-- The changes lead from the keys of a store to the keys. They are listed in order, each once. -/
structure KeyDiff.Leads (diff : KeyDiff) (prior : Messages) (keys : KeySet) : Prop where
  added : ∀ key, key ∈ diff.added ↔ key ∈ keys ∧ key ∉ prior
  removed : ∀ key, key ∈ diff.removed ↔ key ∈ prior ∧ key ∉ keys
  ordered : diff.added.Pairwise (· < ·) ∧ diff.removed.Pairwise (· < ·)
  applied : diff.apply (.ofList prior.keys) = keys

theorem KeyDiff.leads_between (keys : KeySet) (prior : Messages) :
    (KeyDiff.between keys prior).Leads prior keys := by
  have hadded (key : String) :
      key ∈ (KeyDiff.between keys prior).added ↔ key ∈ keys ∧ key ∉ prior := by
    unfold KeyDiff.between
    rw [List.mem_filter, Std.ExtTreeSet.mem_toList, ← Std.ExtTreeMap.contains_iff_mem]
    simp only [Bool.not_eq_true', Bool.not_eq_true]
  have hremoved (key : String) :
      key ∈ (KeyDiff.between keys prior).removed ↔ key ∈ prior ∧ key ∉ keys := by
    unfold KeyDiff.between
    rw [List.mem_filter, Std.ExtTreeMap.mem_keys, ← Std.ExtTreeSet.contains_iff_mem]
    simp only [Bool.not_eq_true', Bool.not_eq_true]
  refine ⟨hadded, hremoved, ⟨?_, ?_⟩, Std.ExtTreeSet.ext_mem fun key => ?_⟩
  · refine List.Pairwise.filter _ (Std.ExtTreeSet.ordered_toList.imp fun hless => ?_)
    exact compareOfLessAndEq_eq_lt.1 hless
  · refine List.Pairwise.filter _ (Std.ExtTreeMap.ordered_keys.imp fun hless => ?_)
    exact compareOfLessAndEq_eq_lt.1 hless
  · unfold KeyDiff.apply
    simp only [Std.ExtTreeSet.mem_filter, Std.ExtTreeSet.mem_insertMany_list,
      Std.ExtTreeSet.mem_ofList, Std.ExtTreeSet.get_eq, List.contains_eq_mem, decide_eq_true_eq,
      Bool.not_eq_true', decide_eq_false_iff_not, hadded, hremoved, Std.ExtTreeMap.mem_keys]
    by_cases hkey : key ∈ keys <;> by_cases hprior : key ∈ prior <;> simp [hkey, hprior]

/-! ## 6. The batch -/

variable {catalog : Catalog} {between after : Workspace}

/-- A batch is taken away just if there was a file in its place before the stores were written. -/
theorem removed_iff {disk : Disk} {removed : Bool} (hapart : catalog.Apart disk.current)
    (hchanged : Changed (catalog.storePlaces disk.current catalog.locales.locales)
      (catalog.storePlaces disk.current catalog.locales.locales) disk between)
    (h : runIn (FileAction.removeFile catalog.batch) between = (.ok removed, after)) :
    removed = true ↔ ∃ bytes, disk.readBytes catalog.batch = .ok bytes := by
  constructor
  · rintro rfl
    obtain ⟨bytes, hread⟩ := FileAction.exists_readBytes_of_removeFile h
    obtain ⟨place, hlocate, hfile⟩ := Workspace.readBytes_eq_ok.1 hread
    rw [Workspace.locate_eq_place hlocate hapart.plain_batch, hchanged.current] at hfile
    refine ⟨bytes, disk.readBytes_of_find? hapart.plain_batch hchanged.current hread ?_⟩
    refine (hchanged.find?_file_iff ?_ bytes).1 hfile
    rintro ⟨locale, hlocale, hplace⟩
    exact hapart.store_batch hlocale (hplace ▸ List.prefix_refl _)
  · rintro ⟨bytes, hread⟩
    have hstill : between.readBytes catalog.batch = .ok bytes :=
      hapart.readBytes_batch (List.Subset.refl _) hchanged hread
    obtain ⟨last, hrun⟩ := FileAction.run_removeFile_of_readBytes hapart.plain_batch hstill
      (FileAction.accepts_of_removeFile hstill h)
    rw [hrun] at h
    cases h
    rfl

end Sync

/-! ## 7. What a status counts -/

namespace Command

open Sync

/-- What a status counts is what the report of a synchronization says of each locale that has
    something to translate, and of the batch. -/
structure Counted (statuses : List LocaleStatus) (summaries : List LocaleSummary)
    (entries carried : Nat) : Prop where
  locale : ∀ status ∈ statuses, ∃ summary ∈ summaries, summary.locale = status.locale ∧
    0 < summary.pending ∧ status.filled + status.blank = summary.pending
  listed : ∀ summary ∈ summaries, 0 < summary.pending →
    ∃ status ∈ statuses, status.locale = summary.locale
  filled : (statuses.map (·.filled)).sum = carried
  all : (statuses.map (·.filled)).sum + (statuses.map (·.blank)).sum = entries

/-- The status of the entries of a locale. -/
theorem batchStatus_eq (batch : Batch) : batchStatus batch =
    batch.toList.map fun entry => ⟨entry.1, entry.2.textCount, entry.2.blankCount⟩ := by
  unfold batchStatus
  refine List.map_congr_left fun entry _ => ?_
  dsimp only
  rw [Messages.length_blankKeys, ← Messages.blankCount_add_textCount, Nat.add_sub_cancel_left]

/-- All entries of a batch are counted, those with a text apart from the blank ones. -/
theorem sum_batchStatus (batch : Batch) :
    ((batchStatus batch).map (·.filled)).sum = batch.textCount ∧
      ((batchStatus batch).map (·.filled)).sum + ((batchStatus batch).map (·.blank)).sum =
        batch.entryCount := by
  rw [batchStatus_eq, List.map_map, List.map_map, Batch.entryCount_eq]
  refine ⟨rfl, List.sum_map_add.symm.trans ?_⟩
  refine congrArg List.sum (List.map_congr_left fun entry _ => ?_)
  exact (Nat.add_comm _ _).trans Messages.blankCount_add_textCount

end Command

namespace Contents

open Sync Command

variable {contents : Contents} {locales : LocaleSet} {keys : KeySet}

/-- The report names every locale, with its counts. -/
theorem locales_report (contents : Contents) (locales : LocaleSet) (keys : KeySet)
    (outcome : BatchOutcome) :
    ((contents.plan locales keys).report outcome).locales = locales.locales.map fun locale =>
      ⟨locale, keys.size, (contents.pending locales keys locale).length⟩ := by
  unfold Plan.report plan
  rw [List.map_map]
  refine List.map_congr_left fun locale _ => ?_
  show (⟨locale, (rebuild keys _ _).size, _⟩ : LocaleSummary) = _
  rw [size_rebuild]
  rfl

/-- There is a new batch just if something is to be translated for a locale. -/
theorem batch_plan_ne_empty : (contents.plan locales keys).batch ≠ ∅ ↔
    ∃ locale ∈ locales.locales, 0 < (contents.pending locales keys locale).length := by
  rw [Ne, Std.ExtTreeMap.eq_empty_iff_forall_not_mem, not_forall_not]
  refine exists_congr fun locale => ?_
  rw [Std.ExtTreeMap.mem_iff_isSome_getElem?, getElem?_batch_plan, List.length_pos_iff]
  split
  · rename_i hpending
    exact iff_of_true rfl hpending
  · rename_i hnone
    exact iff_of_false Bool.false_ne_true hnone

theorem mem_batchStatus_plan {status : LocaleStatus} :
    status ∈ batchStatus (contents.plan locales keys).batch ↔
      ∃ locale ∈ locales.locales, 0 < (contents.pending locales keys locale).length ∧
        status = ⟨locale, (contents.carriedOver locales keys locale).textCount,
          (contents.carriedOver locales keys locale).blankCount⟩ := by
  rw [batchStatus_eq, (toList_batch_plan_perm.map _).mem_iff, List.map_map]
  simp only [List.mem_map, List.mem_filter, decide_eq_true_eq, ← List.length_pos_iff, and_assoc,
    Function.comp_apply, eq_comm (a := status)]

/-- A status of the new batch counts what the report says. -/
theorem counted_plan (outcome : BatchOutcome) : Counted
    (batchStatus (contents.plan locales keys).batch)
    ((contents.plan locales keys).report outcome).locales
    (contents.plan locales keys).batch.entryCount (contents.plan locales keys).carried := by
  rw [locales_report]
  constructor
  case locale =>
    intro status hstatus
    obtain ⟨locale, hlocale, hsome, rfl⟩ := mem_batchStatus_plan.1 hstatus
    refine ⟨_, List.mem_map_of_mem hlocale, rfl, hsome, ?_⟩
    rw [← size_carriedOver, ← Messages.blankCount_add_textCount, Nat.add_comm]
  case listed =>
    intro summary hsummary hsome
    obtain ⟨locale, hlocale, rfl⟩ := List.mem_map.1 hsummary
    exact ⟨_, mem_batchStatus_plan.2 ⟨locale, hlocale, hsome, rfl⟩, rfl⟩
  case filled => exact (sum_batchStatus _).1.trans carried_plan.symm
  case all => exact (sum_batchStatus _).2

end Contents

/-! ## 8. Reports -/

namespace Sync

open Command

/-- The report of a synchronization with the keys is true of the files before it and after it. -/
structure Reported (catalog : Catalog) (keys : KeySet) (before after : Workspace)
    (report : Report) : Prop where
  keyCount : report.keyCount = keys.size
  /-- The keys that are new and gone are told against the canonical store as it was. -/
  diff : ∃ prior, catalog.loadStore catalog.locales.canonical before = .ok prior ∧
    report.diff.Leads prior keys
  /-- Every locale is told of, in the order of the settings. -/
  locales : report.locales.map (·.locale) = catalog.locales.locales
  /-- Its store has all the keys, and what is pending are the blank texts in it. -/
  counts : ∀ summary ∈ report.locales, ∃ store,
    readFile Messages.reader (catalog.storePath summary.locale) after = .ok (some store) ∧
      summary.keys = keys.size ∧ store.size = keys.size ∧
      summary.pending =
        if summary.locale = catalog.locales.canonical then 0 else store.blankCount
  /-- A batch is written just if something is pending. -/
  outcome : (∃ entries carried, report.batch = .written entries carried) ↔
    ∃ summary ∈ report.locales, 0 < summary.pending
  /-- It has an entry for all that is pending, and those that were carried over have a text. -/
  written : ∀ entries carried, report.batch = .written entries carried →
    entries = (report.locales.map (·.pending)).sum ∧
      ∃ batch, catalog.loadBatch after = .ok (some batch) ∧
        batch.entryCount = entries ∧ batch.textCount = carried
  /-- Otherwise there is none, and what is told is whether a file had to be taken away. -/
  upToDate : ∀ removed, report.batch = .upToDate removed →
    catalog.loadBatch after = .ok none ∧
      (removed = true ↔ ∃ bytes, before.readBytes catalog.batch = .ok bytes)
  /-- A status right after it counts the same. -/
  status : ∀ (options : Options) (project : Project), Opened options after project →
    project.catalog = catalog → ∃ found,
      runIn (projectStatus options) after = (.ok (.status found catalog.batch), after) ∧
      (∀ entries carried, report.batch = .written entries carried → ∃ statuses,
        found = some statuses ∧ Counted statuses report.locales entries carried) ∧
      ∀ removed, report.batch = .upToDate removed → found = none

variable {catalog : Catalog} {keys : KeySet} {disk : Disk} {after : Workspace}

/-- A synchronization that succeeds reports what it did. -/
theorem reported_of_synchronize {report : Report} (hapart : catalog.Apart disk.current)
    (h : runIn (synchronize catalog keys) disk = (.ok report, after)) :
    Reported catalog keys disk after report := by
  obtain ⟨contents, hloads⟩ := exists_loads_of_synchronize h
  obtain ⟨hholds, -⟩ := holds_of_synchronize hapart hloads h
  obtain ⟨between, outcome, hwrite, hbatch, rfl⟩ := (synchronize_eq_ok hloads).1 h
  have hlocales := contents.locales_report catalog.locales keys outcome
  have hcases := Plan.outcome_of_writeBatch hbatch
  constructor
  case keyCount => rfl
  case diff =>
    exact ⟨_, hloads.store _ catalog.locales.canonical_mem, KeyDiff.leads_between keys _⟩
  case locales =>
    rw [hlocales, List.map_map]
    exact List.map_id' _
  case counts =>
    intro summary hsummary
    rw [hlocales] at hsummary
    obtain ⟨locale, hlocale, rfl⟩ := List.mem_map.1 hsummary
    exact ⟨_, hholds.stores.readFile hlocale, rfl, size_rebuild, Contents.length_pending⟩
  case outcome =>
    have hpending : (contents.plan catalog.locales keys).batch ≠ ∅ ↔
        ∃ summary ∈ ((contents.plan catalog.locales keys).report outcome).locales,
          0 < summary.pending := by
      rw [hlocales, Contents.batch_plan_ne_empty]
      simp only [List.mem_map, exists_exists_and_eq_and]
    rw [← hpending]
    rcases hcases with ⟨hsome, rfl, -⟩ | ⟨removed, hnone, rfl, -, -⟩
    · exact iff_of_true ⟨_, _, rfl⟩ hsome
    · exact iff_of_false (fun ⟨_, _, hwritten⟩ => nomatch hwritten) (fun hsome => hsome hnone)
  case written =>
    intro entries carried hwritten
    rcases hcases with ⟨-, rfl, hload⟩ | ⟨removed, -, rfl, -, -⟩
    · cases hwritten
      refine ⟨?_, _, hload, rfl, Contents.carried_plan.symm⟩
      rw [hlocales, List.map_map]
      exact Contents.entryCount_batch_plan
    · cases hwritten
  case upToDate =>
    intro removed hnothing
    rcases hcases with ⟨-, rfl, -⟩ | ⟨removed', -, rfl, hload, hremove⟩
    · cases hnothing
    · cases hnothing
      have hstores := changed_stores_of_writeStores hapart hwrite
      exact ⟨hload, removed_iff hapart hstores hremove⟩
  case status =>
    rintro options project hopened rfl
    rcases hcases with ⟨-, rfl, hload⟩ | ⟨removed, -, rfl, hload, -⟩
    · refine ⟨_, run_projectStatus_of_opened hopened hload, ?_, fun _ hnothing => nomatch hnothing⟩
      intro entries carried hwritten
      cases hwritten
      exact ⟨_, rfl, Contents.counted_plan _⟩
    · refine ⟨_, run_projectStatus_of_opened hopened hload, ?_, fun _ _ => rfl⟩
      intro entries carried hwritten
      cases hwritten

/-- One key of the example is new, one is gone, and one text was carried over. -/
theorem reported_sample : ∃ report, Reported .sample (.ofList ["b", "c"]) Disk.sample
    (runIn (synchronize .sample (.ofList ["b", "c"])) Disk.sample).2 report := by
  obtain ⟨report, h⟩ := FileAction.exists_of_isOk (synchronize .sample (.ofList ["b", "c"]))
    Disk.sample (by decide +kernel)
  exact ⟨report, reported_of_synchronize Catalog.apart_sample h⟩

end Sync

end LocaleCatalog
