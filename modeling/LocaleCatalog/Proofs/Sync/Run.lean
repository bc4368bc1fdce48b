import LocaleCatalog.Proofs.Sync.Write

/-!
# What a synchronization leaves behind

`Sync.Synchronized` says what the files of a catalog should be after a synchronization, and
`Sync.synchronized_of_synchronize` that they are: a synchronization that succeeds has made every
store hold the keys, the batch hold what is to be translated, and has left all other files alone.
`Sync.heldText_synchronized` says which texts the new batch has from the old one.

The stores and the batch must not get into each other's way (`Catalog.Apart`).
-/

namespace LocaleCatalog.Sync

open FileAction (runIn)
open Workspace (Changed)

/-! ## 1. What is asked of the result -/

/-- The text that a batch holds for a key of a locale. -/
def heldText (batch : Option Batch) (locale key : String) : Option String := do
  (← (← batch)[locale]?)[key]?

/-- The key has a blank text in the store of a locale that is not the canonical one. -/
def Untranslated (catalog : Catalog) (workspace : Workspace) (locale key : String) : Prop :=
  locale ∈ catalog.locales ∧ locale ≠ catalog.locales.canonical ∧
    ∃ store text,
      readFile Messages.reader (catalog.storePath locale) workspace = .ok (some store) ∧
      store[key]? = some text ∧ Text.Blank text

/-- The files of a catalog after a synchronization with the keys. -/
structure Synchronized (catalog : Catalog) (keys : KeySet) (before after : Workspace) : Prop where
  /-- The canonical store maps each key to itself. -/
  canonical : ∃ store,
    readFile Messages.reader (catalog.storePath catalog.locales.canonical) after =
      .ok (some store) ∧
    ∀ key, store[key]? = if key ∈ keys then some key else none
  /-- Any other store has the keys, each with the text it had, or with none. -/
  others : ∀ locale ∈ catalog.locales, locale ≠ catalog.locales.canonical → ∃ prior store,
    catalog.loadStore locale before = .ok prior ∧
    readFile Messages.reader (catalog.storePath locale) after = .ok (some store) ∧
    ∀ key, store[key]? = if key ∈ keys then some (prior[key]?.getD "") else none
  /-- There is no batch just if nothing is to be translated. -/
  absent : after.entryAt catalog.batch = .error .notFound ↔
    ∀ locale key, ¬ Untranslated catalog after locale key
  /-- Otherwise the batch holds what is to be translated, with the texts of the old batch. -/
  present : (∃ locale key, Untranslated catalog after locale key) → ∃ previous batch,
    catalog.loadBatch before = .ok previous ∧
    catalog.loadBatch after = .ok (some batch) ∧
    (∀ locale, locale ∈ batch ↔ ∃ key, Untranslated catalog after locale key) ∧
    ∀ locale entries, batch[locale]? = some entries → ∀ key text,
      entries[key]? = some text ↔ Untranslated catalog after locale key ∧
        text = ((heldText previous locale key).filter fun text => ¬ Text.Blank text).getD ""
  /-- No file stands elsewhere that did not, and none is gone or has other contents. -/
  elsewhere : ∀ place, place ∉ catalog.places before.current → ∀ bytes,
    after.tree.find? place = some (.file bytes) ↔ before.tree.find? place = some (.file bytes)

variable {catalog : Catalog} {keys : KeySet} {before after : Workspace}

/-! ## 2. The whole run -/

/-- What a plan has for each locale, once its store was written. -/
theorem untranslated_iff {previous : Batch} {prior : String → Messages}
    (hstores : ∀ locale ∈ catalog.locales.locales,
      readFile Messages.reader (catalog.storePath locale) after =
        .ok (some (LocalePlan.make catalog.locales keys previous locale (prior locale)).store))
    (locale key : String) :
    Untranslated catalog after locale key ↔ locale ∈ catalog.locales.locales ∧
      key ∈ (LocalePlan.make catalog.locales keys previous locale (prior locale)).pending := by
  have hpending : key ∈ (LocalePlan.make catalog.locales keys previous locale
        (prior locale)).pending ↔ locale ≠ catalog.locales.canonical ∧ ∃ text,
      (LocalePlan.make catalog.locales keys previous locale (prior locale)).store[key]? =
        some text ∧ Text.Blank text := by
    refine mem_pendingKeys.trans (and_congr_left fun _ => ?_)
    rw [decide_eq_false_iff_not]
  rw [hpending]
  refine and_congr_right fun hlocale => and_congr_right fun _ => ?_
  rw [hstores locale hlocale]
  constructor
  · rintro ⟨store, text, hstore, hfound⟩
    cases hstore
    exact ⟨text, hfound⟩
  · rintro ⟨text, hfound⟩
    exact ⟨_, text, rfl, hfound⟩

theorem heldText_eq (batch : Option Batch) (locale key : String) :
    heldText batch locale key = ((batch.getD ∅)[locale]?.getD ∅)[key]? := by
  unfold heldText
  cases batch with
  | none => simp
  | some batch =>
    show (batch[locale]? >>= fun entries => entries[key]?) = (batch[locale]?.getD ∅)[key]?
    cases batch[locale]? <;> simp

/-- The text that is carried over is the text that the old batch held, unless it is blank. -/
theorem carriedText_eq (previous : Option Batch) (locale key : String) :
    carriedText ((previous.getD ∅)[locale]?.getD ∅) key =
      ((heldText previous locale key).filter fun text => ¬ Text.Blank text).getD "" := by
  unfold carriedText Messages.textOf
  rw [← heldText_eq]
  cases heldText previous locale key with
  | none => simp
  | some text =>
    rw [Option.getD_some, Option.filter_some]
    by_cases hblank : Text.Blank text
    · rw [if_pos hblank, if_neg (by simpa using hblank)]
      rfl
    · rw [if_neg hblank, if_pos (by simpa using hblank)]
      rfl

/-- The batch that a synchronization leaves holds the texts of the old one that are still wanted. -/
theorem heldText_synchronized {contents : Contents} {locale key : String}
    (hlocale : locale ∈ catalog.locales.locales)
    (hkey : key ∈ contents.pending catalog.locales keys locale) :
    heldText (contents.synchronized catalog.locales keys).batch locale key =
      some (((heldText contents.batch locale key).filter fun text => ¬ Text.Blank text).getD "") := by
  have hfound : (contents.plan catalog.locales keys).batch[locale]? =
      some (carriedEntries ((contents.batch.getD ∅)[locale]?.getD ∅)
        (contents.pending catalog.locales keys locale)) := by
    rw [Contents.getElem?_batch_plan, if_pos ⟨hlocale, List.ne_nil_of_mem hkey⟩]
  have hsome : ¬ (contents.plan catalog.locales keys).batch.isEmpty = true := by
    intro hempty
    rw [Std.ExtTreeMap.isEmpty_iff.1 hempty, Std.ExtTreeMap.getElem?_empty] at hfound
    cases hfound
  have hbatch : (contents.synchronized catalog.locales keys).batch =
      some (contents.plan catalog.locales keys).batch := if_neg hsome
  rw [hbatch, heldText_eq, Option.getD_some, hfound, Option.getD_some, ← carriedText_eq]
  exact carriedEntries_eq_some_iff.2 ⟨hkey, rfl⟩

/-- A synchronization loads all files of the catalog, and then writes them all. -/
theorem files_of_synchronize {report : Report} (hapart : catalog.Apart before.current)
    (h : runIn (synchronize catalog keys) before = (.ok report, after)) :
    ∃ (plan : Plan) (previous : Option Batch) (prior : String → Messages),
      catalog.loadBatch before = .ok previous ∧
      (∀ locale ∈ catalog.locales.locales,
        catalog.loadStore locale before = .ok (prior locale)) ∧
      (plan.locales = catalog.locales.locales.map fun locale =>
        LocalePlan.make catalog.locales keys (previous.getD ∅) locale (prior locale)) ∧
      (∀ locale ∈ catalog.locales.locales,
        readFile Messages.reader (catalog.storePath locale) after = .ok (some
          (LocalePlan.make catalog.locales keys (previous.getD ∅) locale (prior locale)).store)) ∧
      (plan.batch = ∅ ∧ after.entryAt catalog.batch = .error .notFound ∨
        plan.batch ≠ ∅ ∧ catalog.loadBatch after = .ok (some plan.batch)) ∧
      Changed (catalog.places before.current) (catalog.places before.current) before after := by
  obtain ⟨contents, hloads⟩ := exists_loads_of_synchronize h
  obtain ⟨hholds, hchanged⟩ := holds_of_synchronize hapart hloads h
  refine ⟨contents.plan catalog.locales keys, contents.batch, contents.stores, hloads.batch,
    hloads.store, rfl, fun locale hlocale => hholds.stores.readFile hlocale, ?_, hchanged⟩
  have hbatch := hholds.batch
  unfold Contents.synchronized Plan.batch? at hbatch
  dsimp only at hbatch
  split at hbatch
  · rename_i hempty
    exact .inl ⟨Std.ExtTreeMap.isEmpty_iff.1 hempty, hbatch⟩
  · rename_i hsome
    exact .inr ⟨fun hempty => hsome (Std.ExtTreeMap.isEmpty_iff.2 hempty), hbatch.loadBatch⟩

/-- A synchronization that succeeds leaves the files of the catalog as they should be, and all
    other files as they were. -/
theorem synchronized_of_synchronize {report : Report} (hapart : catalog.Apart before.current)
    (h : runIn (synchronize catalog keys) before = (.ok report, after)) :
    Synchronized catalog keys before after := by
  obtain ⟨plan, previous, prior, hprevious, hprior, hlocales, hstores, hbatch, hchanged⟩ :=
    files_of_synchronize hapart h
  have huntranslated := untranslated_iff hstores
  have hentries := Plan.getElem?_batch (fun _ => rfl) hlocales
  -- the batch holds a locale just if something is to be translated for it
  have hholds (locale : String) : locale ∈ plan.batch ↔
      ∃ key, Untranslated catalog after locale key := by
    rw [Plan.mem_batch (fun _ => rfl) hlocales]
    exact exists_congr fun key => (huntranslated locale key).symm
  have hempty : plan.batch = ∅ ↔ ∀ locale key, ¬ Untranslated catalog after locale key := by
    constructor
    · intro hnone locale key hkey
      have hmem := (hholds locale).2 ⟨key, hkey⟩
      rw [hnone] at hmem
      exact absurd hmem Std.ExtTreeMap.not_mem_empty
    · intro hnone
      refine Std.ExtTreeMap.eq_empty_iff_forall_not_mem.2 fun locale hmem => ?_
      obtain ⟨key, hkey⟩ := (hholds locale).1 hmem
      exact hnone locale key hkey
  constructor
  case canonical =>
    refine ⟨_, hstores _ catalog.locales.canonical_mem, fun key => ?_⟩
    refine (getElem?_rebuild keys _ _ key).trans ?_
    rw [decide_eq_true rfl, if_pos rfl]
  case others =>
    intro locale hlocale hother
    refine ⟨prior locale, _, hprior locale hlocale, hstores locale hlocale, fun key => ?_⟩
    refine (getElem?_rebuild keys _ _ key).trans ?_
    rw [decide_eq_false hother, if_neg Bool.false_ne_true]
    rfl
  case absent =>
    rw [← hempty]
    rcases hbatch with ⟨hnone, habsent⟩ | ⟨hsome, hread⟩
    · exact iff_of_true habsent hnone
    · refine iff_of_false (fun habsent => ?_) hsome
      rw [Catalog.loadBatch_of_notFound habsent] at hread
      cases hread
  case present =>
    rintro ⟨locale, key, hkey⟩
    rcases hbatch with ⟨hnone, -⟩ | ⟨-, hread⟩
    · exact absurd hkey (hempty.1 hnone locale key)
    · refine ⟨previous, plan.batch, hprevious, hread, hholds, ?_⟩
      intro locale entries hfound key text
      rw [hentries] at hfound
      split at hfound
      · rename_i hpending
        cases hfound
        rw [← carriedText_eq, huntranslated, and_iff_right hpending.1]
        exact carriedEntries_eq_some_iff
      · cases hfound
  case elsewhere =>
    intro place hplace
    exact hchanged.find?_file_iff hplace

/-- One key of the example is new, and one has lost its place in the sources. -/
theorem synchronized_sample :
    Synchronized .sample (.ofList ["b", "c"]) .sample
      (runIn (synchronize .sample (.ofList ["b", "c"])) .sample).2 := by
  obtain ⟨report, h⟩ := FileAction.exists_of_isOk (synchronize .sample (.ofList ["b", "c"])) .sample
    (by decide +kernel)
  exact synchronized_of_synchronize Catalog.apart_sample h

end LocaleCatalog.Sync
