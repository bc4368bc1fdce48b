import LocaleCatalog.Proofs.Sync.Write

/-!
# A synchronization after another one

What a synchronization makes of the files depends on what they say, and a synchronization with more
keys takes away nothing that a later one with fewer keys would look at:

* `Contents.synchronized_synchronized`: of the two, the later one alone gives the same contents;
* `Contents.Settled`: contents that a synchronization leaves as they are, such as those that it has
  just made (`Contents.settled_synchronized`). On files that hold them it changes nothing
  (`Sync.run_synchronize_of_settled`);
* `Sync.absorbed_of_synchronize`: so every file comes out with the same bytes.
-/

namespace LocaleCatalog

open FileAction (runIn)
open Workspace (Heeded)
open Sync

/-! ## 1. Texts -/

namespace Sync

variable {fewer keys : KeySet} {prior previous previous' : Messages} {canonical : Bool}
  {pending : List String} {key : String}

/-- A rebuilt store still has all that a store with fewer keys needs. -/
theorem rebuild_rebuild (hfewer : ∀ key ∈ fewer, key ∈ keys) :
    rebuild fewer (rebuild keys prior canonical) canonical = rebuild fewer prior canonical := by
  refine Std.ExtTreeMap.ext_getElem? fun key => ?_
  rw [getElem?_rebuild, getElem?_rebuild]
  by_cases hkey : key ∈ fewer
  · rw [if_pos hkey, if_pos hkey, textOf_rebuild (hfewer key hkey)]
    cases canonical <;> rfl
  · rw [if_neg hkey, if_neg hkey]

/-- A text that is carried over is empty or not blank. -/
theorem carriedText_eq_empty (h : Text.Blank (carriedText previous key)) :
    carriedText previous key = "" := by
  unfold carriedText at h ⊢
  dsimp only at h ⊢
  split at h
  · rename_i hblank
    exact if_pos hblank
  · rename_i hsome
    exact absurd h hsome

/-- The text that was carried over is carried over again. -/
theorem carriedText_carriedEntries (hkey : key ∈ pending) :
    carriedText (carriedEntries previous pending) key = carriedText previous key := by
  have htext : (carriedEntries previous pending).textOf key = carriedText previous key := by
    unfold Messages.textOf
    rw [carriedEntries_eq_some_iff.2 ⟨hkey, rfl⟩]
    rfl
  rw [carriedText, htext]
  split
  · rename_i hblank
    exact (carriedText_eq_empty hblank).symm
  · rfl

theorem carriedEntries_congr
    (h : ∀ key ∈ pending, carriedText previous key = carriedText previous' key) :
    carriedEntries previous pending = carriedEntries previous' pending := by
  unfold carriedEntries
  rw [List.map_congr_left fun key hkey => congrArg (Prod.mk key) (h key hkey)]

/-- A store has exactly the keys just if there is no difference. -/
theorem KeyDiff.between_eq_nil (h : ∀ key, key ∈ keys ↔ key ∈ prior) :
    KeyDiff.between keys prior = ⟨[], []⟩ := by
  unfold KeyDiff.between
  congr 1
  · refine List.filter_eq_nil_iff.2 fun key hkey => ?_
    simpa using (h key).1 (Std.ExtTreeSet.mem_toList.1 hkey)
  · refine List.filter_eq_nil_iff.2 fun key hkey => ?_
    simpa using (h key).2 (Std.ExtTreeMap.mem_keys.1 hkey)

end Sync

/-! ## 2. Contents -/

namespace Contents

variable {locales : LocaleSet} {fewer keys : KeySet} {contents : Contents} {locale : String}

theorem getD_batch_synchronized :
    (contents.synchronized locales keys).batch.getD ∅ = (contents.plan locales keys).batch := by
  unfold synchronized Plan.batch?
  dsimp only
  split
  · rename_i hempty
    exact (Std.ExtTreeMap.isEmpty_iff.1 hempty).symm
  · rfl

/-- A locale is planned as if the synchronization with more keys had not been. -/
theorem make_synchronized (hfewer : ∀ key ∈ fewer, key ∈ keys)
    (hlocale : locale ∈ locales.locales) :
    LocalePlan.make locales fewer ((contents.synchronized locales keys).batch.getD ∅) locale
        ((contents.synchronized locales keys).stores locale) =
      LocalePlan.make locales fewer (contents.batch.getD ∅) locale (contents.stores locale) := by
  rw [getD_batch_synchronized]
  unfold synchronized LocalePlan.make
  dsimp only
  rw [rebuild_rebuild hfewer]
  congr 1
  refine carriedEntries_congr fun key hkey => ?_
  -- what is to be translated was so before, too, and stands in the batch
  have hpending : key ∈ contents.pending locales keys locale := by
    obtain ⟨hother, hmem, hblank⟩ := mem_pending.1 hkey
    exact mem_pending.2 ⟨hother, hfewer key hmem, hblank⟩
  rw [getElem?_batch_plan, if_pos ⟨hlocale, List.ne_nil_of_mem hpending⟩, Option.getD_some]
  exact carriedText_carriedEntries hpending

theorem locales_plan_synchronized (hfewer : ∀ key ∈ fewer, key ∈ keys) :
    ((contents.synchronized locales keys).plan locales fewer).locales =
      (contents.plan locales fewer).locales :=
  List.map_congr_left fun _ hlocale => make_synchronized hfewer hlocale

/-- Of two synchronizations, the one with fewer keys alone gives the same if it is the later. -/
theorem synchronized_synchronized (hfewer : ∀ key ∈ fewer, key ∈ keys) :
    (contents.synchronized locales keys).synchronized locales fewer =
      contents.synchronized locales fewer := by
  have hbatch : ((contents.synchronized locales keys).plan locales fewer).batch? =
      (contents.plan locales fewer).batch? := by
    unfold Plan.batch? Plan.batch
    rw [locales_plan_synchronized hfewer]
  have hstores : ((contents.synchronized locales keys).synchronized locales fewer).stores =
      (contents.synchronized locales fewer).stores :=
    funext fun _ => rebuild_rebuild hfewer
  exact congrArg₂ Contents.mk hstores hbatch

/-- A synchronization with the keys leaves the contents as they are. -/
structure Settled (contents : Contents) (locales : LocaleSet) (keys : KeySet) : Prop where
  stores : ∀ locale ∈ locales.locales,
    rebuild keys (contents.stores locale) (locale = locales.canonical) = contents.stores locale
  batch : (contents.plan locales keys).batch? = contents.batch

/-- What a synchronization has made, the next one leaves as it is. -/
theorem settled_synchronized : (contents.synchronized locales keys).Settled locales keys := by
  have hsame : (contents.synchronized locales keys).synchronized locales keys =
      contents.synchronized locales keys := synchronized_synchronized fun _ hkey => hkey
  exact ⟨fun locale _ => congrFun (congrArg Contents.stores hsame) locale,
    congrArg Contents.batch hsame⟩

/-- Settled contents have exactly the keys. -/
theorem Settled.diff_plan (h : contents.Settled locales keys) :
    (contents.plan locales keys).diff = ⟨[], []⟩ := by
  refine KeyDiff.between_eq_nil fun key => ?_
  rw [← h.stores _ locales.canonical_mem]
  exact mem_rebuild.symm

end Contents

/-! ## 3. Runs -/

namespace Sync

variable {catalog : Catalog} {keys : KeySet} {contents : Contents}
  {before between after workspace : Workspace}

/-- What a synchronization of settled contents says of the batch. -/
def Plan.settledOutcome (plan : Plan) : BatchOutcome :=
  if plan.batch.isEmpty then .upToDate false else .written plan.batch.entryCount plan.carried

theorem Plan.settledOutcome_of_none {plan : Plan} (h : plan.batch? = none) :
    plan.settledOutcome = .upToDate false := by
  unfold Plan.batch? at h
  split at h
  · rename_i hempty
    exact if_pos hempty
  · cases h

/-- Stores that hold settled contents are left as they are. -/
theorem run_writeStores_of_settled (hapart : catalog.Apart workspace.current)
    (hstores : catalog.HoldsStores workspace contents.stores)
    (haccepts : ∀ locale ∈ catalog.locales.locales, workspace.Accepts (catalog.storePath locale))
    (h : contents.Settled catalog.locales keys) :
    runIn ((contents.plan catalog.locales keys).writeStores catalog) workspace =
      (.ok (), workspace) := by
  refine run_writeStores_self hapart (fun _ => mem_locales_of_mem_plan)
    (fun plan hplan => haccepts _ (mem_locales_of_mem_plan hplan)) fun plan hplan => ?_
  obtain ⟨locale, hlocale, rfl⟩ := List.mem_map.1 hplan
  rw [LocalePlan.locale_make, LocalePlan.store_make, h.stores locale hlocale]
  exact hstores locale hlocale

/-- A synchronization of files that hold settled contents changes nothing. -/
theorem run_synchronize_of_settled (hapart : catalog.Apart workspace.current)
    (hholds : catalog.Holds workspace contents) (haccepts : catalog.AcceptedFor workspace contents)
    (h : contents.Settled catalog.locales keys) :
    runIn (synchronize catalog keys) workspace =
      (.ok ((contents.plan catalog.locales keys).report
        (contents.plan catalog.locales keys).settledOutcome), workspace) := by
  have hbatch : runIn ((contents.plan catalog.locales keys).writeBatch catalog) workspace =
      (.ok (contents.plan catalog.locales keys).settledOutcome, workspace) := by
    have hheld := hholds.batch
    rw [← h.batch] at hheld
    unfold Plan.batch? at hheld
    unfold Plan.writeBatch Plan.settledOutcome
    split at hheld
    · rename_i hempty
      rw [if_pos hempty, if_pos hempty, FileAction.run_bind,
        Catalog.removeBatch_of_holdsBatch hapart hheld]
      rfl
    · rename_i hsome
      have hsave : runIn (catalog.saveBatch (contents.plan catalog.locales keys).batch) workspace =
          (.ok (), workspace) := by
        refine run_writeFile_self hapart.plain_batch hheld (haccepts.batch ?_)
        rw [← h.batch, Plan.batch?, if_neg hsome]
        nofun
      rw [if_neg hsome, if_neg hsome, FileAction.run_bind, hsave]
      rfl
  rw [run_synchronize hholds.loads,
    run_writeStores_of_settled hapart hholds.stores haccepts.store h]
  dsimp only
  rw [hbatch]

/-- What is written is reported with the number of its entries and of those carried over. -/
theorem eq_of_writeBatch_written {plan : Plan} {entries carried : Nat}
    (h : runIn (plan.writeBatch catalog) before = (.ok (.written entries carried), after)) :
    plan.settledOutcome = .written entries carried := by
  rcases Plan.outcome_of_writeBatch h with ⟨hsome, houtcome, -⟩ | ⟨removed, -, houtcome, -⟩
  · rw [houtcome]
    exact if_neg fun hempty => hsome (Std.ExtTreeMap.isEmpty_iff.1 hempty)
  · cases houtcome

/-- What a synchronization with the keys leaves to the ones after it. -/
structure Absorbed (catalog : Catalog) (keys : KeySet) (report : Report)
    (before between : Workspace) : Prop where
  /-- One with fewer keys gives every file the bytes that it would have given alone. -/
  fewer : ∀ (fewer : KeySet), (∀ key ∈ fewer, key ∈ keys) →
    ∀ (later alone : Report) (twice once : Workspace),
      runIn (synchronize catalog fewer) between = (.ok later, twice) →
      runIn (synchronize catalog fewer) before = (.ok alone, once) →
      ∀ path ∈ catalog.paths, twice.entryAt path = once.entryAt path
  /-- One with the same keys changes nothing at all, finds no difference, and carries over as many
      texts as the first, if there is a batch. -/
  again : ∃ again : Report, runIn (synchronize catalog keys) between = (.ok again, between) ∧
    again.diff.added = [] ∧ again.diff.removed = [] ∧
    ∀ entries carried, report.batch = .written entries carried →
      again.batch = .written entries carried

/-- A synchronization makes no difference to a later one with the same keys or with fewer. -/
theorem absorbed_of_synchronize {report : Report} (hapart : catalog.Apart before.current)
    (h : runIn (synchronize catalog keys) before = (.ok report, between)) :
    Absorbed catalog keys report before between := by
  obtain ⟨contents, hloads⟩ := exists_loads_of_synchronize h
  obtain ⟨hholds, hchanged⟩ := holds_of_synchronize hapart hloads h
  have hapart' : catalog.Apart between.current := hchanged.current ▸ hapart
  have hheeded : Heeded before between := (moves_synchronize catalog keys).of_run h
  have haccepts := (acceptedFor_of_synchronize hloads h).of_noStricter hheeded.noStricter
  constructor
  case fewer =>
    intro fewer hfewer later alone twice once htwice honce
    have hholds₁ := (holds_of_synchronize hapart' hholds.loads htwice).1
    have hholds₂ := (holds_of_synchronize hapart hloads honce).1
    rw [Contents.synchronized_synchronized hfewer] at hholds₁
    exact Catalog.entryAt_eq_of_holds hholds₁ hholds₂ (fun _ _ => rfl) rfl
  case again =>
    refine ⟨_, run_synchronize_of_settled hapart' hholds haccepts Contents.settled_synchronized,
      ?_, ?_, ?_⟩
    · exact congrArg KeyDiff.added Contents.settled_synchronized.diff_plan
    · exact congrArg KeyDiff.removed Contents.settled_synchronized.diff_plan
    · intro entries carried hwritten
      obtain ⟨_, outcome, -, hbatch, rfl⟩ := (synchronize_eq_ok hloads).1 h
      obtain rfl : outcome = .written entries carried := hwritten
      have hlocales : ((contents.synchronized catalog.locales keys).plan catalog.locales
          keys).locales = (contents.plan catalog.locales keys).locales :=
        Contents.locales_plan_synchronized fun _ hkey => hkey
      refine Eq.trans ?_ (eq_of_writeBatch_written hbatch)
      show Plan.settledOutcome _ = _
      unfold Plan.settledOutcome Plan.carried Plan.batch
      rw [hlocales]

/-- Of three keys of the example two are left out again, and the files are the same as if these had
    never been there. -/
theorem absorbed_sample : ∃ report between, Absorbed .sample (.ofList ["a", "b", "c"]) report .sample
    between ∧ ∃ later alone twice once,
      runIn (synchronize .sample (.ofList ["b"])) between = (.ok later, twice) ∧
      runIn (synchronize .sample (.ofList ["b"])) .sample = (.ok alone, once) ∧
      ∀ path ∈ Catalog.sample.paths, twice.entryAt path = once.entryAt path := by
  obtain ⟨report, h⟩ := FileAction.exists_of_isOk
    (synchronize .sample (.ofList ["a", "b", "c"])) .sample (by decide +kernel)
  obtain ⟨later, hlater⟩ := FileAction.exists_of_isOk (synchronize .sample (.ofList ["b"]))
    (runIn (synchronize .sample (.ofList ["a", "b", "c"])) .sample).2 (by decide +kernel)
  obtain ⟨alone, halone⟩ := FileAction.exists_of_isOk (synchronize .sample (.ofList ["b"])) .sample
    (by decide +kernel)
  have habsorbed := absorbed_of_synchronize Catalog.apart_sample h
  have hfewer : ∀ key ∈ (.ofList ["b"] : KeySet), key ∈ (.ofList ["a", "b", "c"] : KeySet) := by
    simp [Std.ExtTreeSet.mem_ofList]
  exact ⟨report, _, habsorbed, later, alone, _, _, hlater, halone,
    habsorbed.fewer _ hfewer later alone _ _ hlater halone⟩

end Sync

end LocaleCatalog
