import LocaleCatalog.Proofs.Catalog.Contents
import LocaleCatalog.Sync.Plan

/-!
# What a synchronization plans

* `Sync.Plan.exists_loads`: a plan exists only if the batch and every store can be loaded;
* `Sync.getElem?_rebuild` and `Sync.carriedEntries_eq_some_iff`: the text of each key in a rebuilt
  store and in the entries of a locale;
* `Sync.Plan.getElem?_batch`: which locales the new batch holds, and with which entries;
* `Contents.plan` and `Contents.synchronized`: the plan and the outcome as functions of what the
  files say, and of nothing else (`Sync.Plan.make_of_loads`);
* `Contents.pending`: what is to be translated. The new batch holds just that
  (`Contents.batch_plan_eq_some`), and so only what the keys call for (`Batch.AsksWithin`,
  `Contents.asksWithin_batch_plan`).
-/

namespace LocaleCatalog.Sync

/-! ## 1. Loading -/

/-- Where a question has an answer for all of a list, so it has for each. -/
theorem eq_ok_of_mapM_pair {ε β : Type} {question : String → Except ε β} {locales : List String}
    {answers : List (String × β)} (default : β)
    (h : locales.mapM (fun locale => return (locale, ← question locale)) = .ok answers) :
    ∀ locale ∈ locales, question locale = .ok ((question locale).toOption.getD default) := by
  induction locales generalizing answers with
  | nil => exact fun _ hmem => absurd hmem List.not_mem_nil
  | cons locale locales ih =>
    rw [List.mapM_cons] at h
    obtain ⟨first, hfirst, h⟩ := bind_eq_ok.1 h
    obtain ⟨more, hmore, -⟩ := bind_eq_ok.1 h
    obtain ⟨answer, hanswer, -⟩ := bind_eq_ok.1 hfirst
    intro other hother
    rcases List.mem_cons.1 hother with rfl | hother
    · rw [hanswer]
      rfl
    · exact ih hmore other hother

/-- Where a question has an answer for each of a list, so it has for all. -/
theorem mapM_pair_of_forall {ε β : Type} {question : String → Except ε β} {answer : String → β}
    {locales : List String} (h : ∀ locale ∈ locales, question locale = .ok (answer locale)) :
    locales.mapM (fun locale => return (locale, ← question locale)) =
      .ok (locales.map fun locale => (locale, answer locale)) := by
  induction locales with
  | nil => rfl
  | cons locale locales ih =>
    rw [List.mapM_cons, h locale List.mem_cons_self,
      ih fun other hother => h other (List.mem_cons_of_mem _ hother)]
    rfl

theorem lookup_map_pair {β : Type} (answer : String → β) {locales : List String} {locale : String}
    (h : locale ∈ locales) :
    (locales.map fun locale => (locale, answer locale)).lookup locale = some (answer locale) := by
  induction locales with
  | nil => cases h
  | cons first locales ih =>
    rw [List.map_cons, List.lookup_cons]
    by_cases heq : locale = first
    · subst heq
      rw [beq_self_eq_true]
    · rw [beq_eq_false_iff_ne.2 heq]
      exact ih ((List.mem_cons.1 h).resolve_left heq)

/-- A plan exists only if all files can be loaded. -/
theorem Plan.exists_loads {catalog : Catalog} {keys : KeySet} {workspace : Workspace} {plan : Plan}
    (h : Plan.make catalog keys workspace = .ok plan) :
    ∃ contents, catalog.Loads workspace contents := by
  obtain ⟨previous, hprevious, h⟩ := bind_eq_ok.1 h
  obtain ⟨priors, hpriors, -⟩ := bind_eq_ok.1 h
  exact ⟨⟨_, previous⟩, eq_ok_of_mapM_pair ∅ hpriors, hprevious⟩

/-! ## 2. One locale -/

variable {previous : Messages} {canonical : Bool}

/-- A rebuilt store has exactly the keys. -/
theorem getElem?_rebuild (keys : KeySet) (prior : Messages) (canonical : Bool) (key : String) :
    (rebuild keys prior canonical)[key]? =
      if key ∈ keys then some (if canonical then key else prior.textOf key) else none := by
  unfold rebuild
  rw [Messages.getElem?_ofEntries]
  exact if_congr Std.ExtTreeSet.mem_toList rfl rfl

/-- A store with a text for each of the keys, and no other, has these keys. -/
theorem mem_iff_of_getElem? {keys : KeySet} {store : Messages} {text : String → String}
    (h : ∀ key, store[key]? = if key ∈ keys then some (text key) else none) (key : String) :
    key ∈ store ↔ key ∈ keys := by
  rw [Std.ExtTreeMap.mem_iff_isSome_getElem?, h]
  by_cases hkey : key ∈ keys <;> simp [hkey]

theorem mem_rebuild {keys : KeySet} {prior : Messages} {key : String} :
    key ∈ rebuild keys prior canonical ↔ key ∈ keys :=
  mem_iff_of_getElem? (getElem?_rebuild keys prior canonical) key

theorem textOf_rebuild {keys : KeySet} {prior : Messages} {key : String} (hkey : key ∈ keys) :
    (rebuild keys prior canonical).textOf key = if canonical then key else prior.textOf key := by
  unfold Messages.textOf
  rw [getElem?_rebuild, if_pos hkey]
  rfl

@[simp] theorem LocalePlan.locale_make (locales : LocaleSet) (keys : KeySet) (previous : Batch)
    (locale : String) (prior : Messages) :
    (LocalePlan.make locales keys previous locale prior).locale = locale := rfl

@[simp] theorem LocalePlan.store_make (locales : LocaleSet) (keys : KeySet) (previous : Batch)
    (locale : String) (prior : Messages) :
    (LocalePlan.make locales keys previous locale prior).store =
      rebuild keys prior (locale = locales.canonical) := rfl

/-- The entries of a locale have exactly the keys that are to be translated. -/
theorem carriedEntries_eq_some_iff {pending : List String} {key text : String} :
    (carriedEntries previous pending)[key]? = some text ↔
      key ∈ pending ∧ text = carriedText previous key := by
  unfold carriedEntries
  rw [Messages.getElem?_ofEntries]
  split
  · rename_i hmem
    rw [Option.some_inj, and_iff_right hmem]
    exact eq_comm
  · rename_i hmem
    exact iff_of_false (by simp) fun h => hmem h.1

/-- The keys that are to be translated are those with a blank text, but for the canonical locale. -/
theorem mem_pendingKeys {rebuilt : Messages} {key : String} :
    key ∈ pendingKeys rebuilt canonical ↔
      canonical = false ∧ ∃ text, rebuilt[key]? = some text ∧ Text.Blank text := by
  unfold pendingKeys
  cases canonical with
  | true => simp
  | false =>
    rw [if_neg Bool.false_ne_true, Messages.mem_blankKeys]
    exact (and_iff_right rfl).symm

/-- In a rebuilt store, these are the keys that had no text before. -/
theorem mem_pendingKeys_rebuild {keys : KeySet} {prior : Messages} {key : String} :
    key ∈ pendingKeys (rebuild keys prior canonical) canonical ↔
      canonical = false ∧ key ∈ keys ∧ Text.Blank (prior.textOf key) := by
  rw [mem_pendingKeys]
  refine and_congr_right fun hother => ?_
  subst hother
  rw [getElem?_rebuild]
  by_cases hkey : key ∈ keys
  · simp [hkey]
  · simp [hkey]

/-! ## 3. The batch -/

/-- The new batch holds the locales with something to translate, each with its own entries. -/
theorem Plan.getElem?_batch {plan : Plan} {locales : List String}
    {make : String → LocalePlan} (hname : ∀ locale, (make locale).locale = locale)
    (h : plan.locales = locales.map make) (locale : String) :
    plan.batch[locale]? =
      if locale ∈ locales ∧ (make locale).pending ≠ [] then some (make locale).entries
      else none := by
  have hentries : (plan.locales.filter fun plan => plan.pending ≠ []).map
        (fun plan => (plan.locale, plan.entries)) =
      (locales.filter fun locale => (make locale).pending ≠ []).map
        fun locale => (locale, (make locale).entries) := by
    rw [h, List.filter_map, List.map_map]
    refine List.map_congr_left fun locale _ => ?_
    show ((make locale).locale, (make locale).entries) = _
    rw [hname]
  unfold Plan.batch
  rw [hentries, Batch.getElem?_ofEntries]
  refine if_congr ?_ rfl rfl
  rw [List.mem_filter, decide_eq_true_eq]

theorem Plan.mem_batch {plan : Plan} {locales : List String} {make : String → LocalePlan}
    (hname : ∀ locale, (make locale).locale = locale) (h : plan.locales = locales.map make)
    (locale : String) :
    locale ∈ plan.batch ↔ ∃ key, locale ∈ locales ∧ key ∈ (make locale).pending := by
  rw [Std.ExtTreeMap.mem_iff_isSome_getElem?, Plan.getElem?_batch hname h, exists_and_left]
  have hsome : (make locale).pending ≠ [] ↔ ∃ key, key ∈ (make locale).pending :=
    ⟨List.exists_mem_of_ne_nil _, fun ⟨_, hkey⟩ => List.ne_nil_of_mem hkey⟩
  rw [← hsome]
  split
  · rename_i hlocale
    exact iff_of_true rfl hlocale
  · rename_i hlocale
    exact iff_of_false Bool.false_ne_true hlocale

/-- The new batch, if there is anything to be translated. -/
def Plan.batch? (plan : Plan) : Option Batch :=
  if plan.batch.isEmpty then none else some plan.batch

end LocaleCatalog.Sync

namespace LocaleCatalog

open Sync

/-! ## 4. Plans of contents -/

/-- The plan of a synchronization of these contents. -/
def Contents.plan (contents : Contents) (locales : LocaleSet) (keys : KeySet) : Sync.Plan where
  keyCount := keys.size
  diff := KeyDiff.between keys (contents.stores locales.canonical)
  locales := locales.locales.map fun locale =>
    LocalePlan.make locales keys (contents.batch.getD ∅) locale (contents.stores locale)

/-- The contents after a synchronization. -/
def Contents.synchronized (contents : Contents) (locales : LocaleSet) (keys : KeySet) :
    Contents where
  stores locale := rebuild keys (contents.stores locale) (locale = locales.canonical)
  batch := (contents.plan locales keys).batch?

/-- The batch names only configured locales other than the canonical one, and only the keys. -/
def Batch.AsksWithin (batch : Batch) (locales : LocaleSet) (keys : KeySet) : Prop :=
  ∀ locale entries, batch[locale]? = some entries →
    locale ∈ locales ∧ locale ≠ locales.canonical ∧ ∀ key ∈ entries, key ∈ keys

namespace Contents

variable {contents : Contents} {locales : LocaleSet} {keys : KeySet} {locale key : String}

/-- What is to be translated for a locale. -/
def pending (contents : Contents) (locales : LocaleSet) (keys : KeySet) (locale : String) :
    List String :=
  pendingKeys (rebuild keys (contents.stores locale) (locale = locales.canonical))
    (locale = locales.canonical)

/-- These are the keys without a text, unless the locale is the canonical one. -/
theorem mem_pending : key ∈ contents.pending locales keys locale ↔
    locale ≠ locales.canonical ∧ key ∈ keys ∧ Text.Blank ((contents.stores locale).textOf key) := by
  unfold pending
  rw [mem_pendingKeys_rebuild, decide_eq_false_iff_not]

/-- The new batch holds them, each with the text that the old one had for it. -/
theorem getElem?_batch_plan : (contents.plan locales keys).batch[locale]? =
    if locale ∈ locales.locales ∧ contents.pending locales keys locale ≠ [] then
      some (carriedEntries ((contents.batch.getD ∅)[locale]?.getD ∅)
        (contents.pending locales keys locale))
    else none := by
  have hlocales : (contents.plan locales keys).locales = locales.locales.map fun locale =>
      LocalePlan.make locales keys (contents.batch.getD ∅) locale (contents.stores locale) := rfl
  exact Plan.getElem?_batch (fun _ => rfl) hlocales locale

/-- The locales of the batch, each with the keys that are to be translated. -/
theorem batch_plan_eq_some {asked : Messages}
    (h : (contents.plan locales keys).batch[locale]? = some asked) :
    locale ∈ locales.locales ∧ contents.pending locales keys locale ≠ [] ∧
      ∀ key, key ∈ asked ↔ key ∈ contents.pending locales keys locale := by
  rw [getElem?_batch_plan] at h
  split at h
  · rename_i hpending
    cases h
    refine ⟨hpending.1, hpending.2, fun key => ?_⟩
    rw [mem_iff_exists_getElem?]
    simp only [carriedEntries_eq_some_iff, exists_and_left, exists_eq, and_true]
  · cases h

/-- The batch that a synchronization writes asks for texts of its keys. -/
theorem asksWithin_batch_plan : (contents.plan locales keys).batch.AsksWithin locales keys := by
  intro locale entries hentries
  obtain ⟨hlocale, hsome, hkeys⟩ := batch_plan_eq_some hentries
  -- where something is to be translated, the locale is not the canonical one
  obtain ⟨pending, hpending⟩ := List.exists_mem_of_ne_nil _ hsome
  refine ⟨hlocale, (mem_pending.1 hpending).1, fun key hkey => ?_⟩
  exact (mem_pending.1 ((hkeys key).1 hkey)).2.1

end Contents

namespace Sync

variable {catalog : Catalog} {keys : KeySet} {workspace : Workspace} {contents : Contents}

/-- A synchronization plans from what the files say. -/
theorem Plan.make_of_loads (h : catalog.Loads workspace contents) (keys : KeySet) :
    Plan.make catalog keys workspace = .ok (contents.plan catalog.locales keys) := by
  have hstores : loadStores catalog workspace =
      .ok (catalog.locales.locales.map fun locale => (locale, contents.stores locale)) :=
    mapM_pair_of_forall h.store
  have hcanonical := lookup_map_pair contents.stores catalog.locales.canonical_mem
  unfold Plan.make
  rw [h.batch, hstores]
  simp only [bind, Except.bind, pure, Except.pure]
  rw [hcanonical, List.map_map]
  rfl

end Sync

end LocaleCatalog
