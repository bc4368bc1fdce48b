import LocaleCatalog.Proofs.History.Basic
import LocaleCatalog.Proofs.Sync.Run

/-!
# No translation is lost

A translation lives in a store, or in the batch until it is merged. A synchronization rebuilds the
stores and replaces the batch, a merge overwrites texts of the stores and takes the batch away, and
each of them may fail half-way.

* `Catalog.Gives` says that a store gives a key a text;
* `Event.Leads.gives`: a key that has a text which is not blank still has one after any event, and it
  has another one only after a merge, which took it from the batch;
* `carried_of_synchronize`: a synchronization keeps the text of a batch that no store has yet;
* `retained_of_history` puts both together, for all states of a history (`Retained`).

This holds of a key that all synchronizations are asked to keep. One that has lost its place in the
sources loses its texts.
-/

namespace LocaleCatalog

open FileAction (runIn)
open Workspace (Kept)
open Sync (heldText)

/-! ## 1. What is asked of a history -/

/-- The store of the locale can be read and gives the key this text. -/
def Catalog.Gives (catalog : Catalog) (workspace : Workspace) (locale key text : String) : Prop :=
  ∃ store, readFile Messages.reader (catalog.storePath locale) workspace = .ok (some store) ∧
    store[key]? = some text

/-- The store of the locale gives the key a text that is not blank. -/
def Catalog.Translates (catalog : Catalog) (locale key : String) (workspace : Workspace) : Prop :=
  ∃ text, catalog.Gives workspace locale key text ∧ ¬ Text.Blank text

/-- The batch can be read and holds this text for the key of the locale. -/
def Catalog.Offers (catalog : Catalog) (workspace : Workspace) (locale key text : String) : Prop :=
  ∃ batch, catalog.loadBatch workspace = .ok (some batch) ∧
    heldText (some batch) locale key = some text

/-- The states of a history, in their order. -/
def History.states (start : Workspace) (steps : List Step) : List Workspace :=
  start :: steps.map (·.after)

/-- No step of a history loses a text for the key of the locale. -/
structure Retained (catalog : Catalog) (locale key : String) (start : Workspace)
    (steps : List Step) : Prop where
  /-- Once there is a translation in the store, there always is one. -/
  kept : (History.states start steps).Pairwise fun earlier later =>
    catalog.Translates locale key earlier → catalog.Translates locale key later
  /-- It is another one only after a merge, and then it is what the batch held. -/
  replaced : ∀ step ∈ steps, ∀ text text', catalog.Gives step.before locale key text →
    ¬ Text.Blank text → catalog.Gives step.after locale key text' → text' ≠ text →
    (∃ result, step.event = .merged result) ∧ catalog.Offers step.before locale key text'
  /-- A synchronization that succeeds leaves in the batch what no store has. -/
  carried : ∀ step ∈ steps, ∀ keys report store text,
    step.event = .synchronized keys (.ok report) →
    catalog.loadStore locale step.before = .ok store → Text.Blank (store.textOf key) →
    catalog.Offers step.before locale key text → ¬ Text.Blank text →
    catalog.Offers step.after locale key text

variable {catalog : Catalog} {locale key text : String} {start before after last : Workspace}
  {event : Event} {steps : List Step}

/-! ## 2. Stores -/

theorem Catalog.Gives.unique {text' : String} (h : catalog.Gives before locale key text)
    (h' : catalog.Gives before locale key text') : text' = text := by
  obtain ⟨store, hread, htext⟩ := h
  obtain ⟨store', hread', htext'⟩ := h'
  rw [hread] at hread'
  cases hread'
  rw [htext] at htext'
  cases htext'
  rfl

theorem Catalog.Gives.of_kept (h : catalog.Gives before locale key text)
    (hkept : Kept (catalog.storePath locale) before after) :
    catalog.Gives after locale key text := by
  obtain ⟨store, hread, htext⟩ := h
  exact ⟨store, readFile_of_kept hread hkept, htext⟩

/-- After any event the key still has a text. It has another one only if a merge took that from the
    batch. -/
theorem Event.Leads.gives (hapart : catalog.Apart before.current)
    (h : event.Leads catalog before after) (hlocale : locale ∈ catalog.locales)
    (hother : locale ≠ catalog.locales.canonical)
    (hkeys : ∀ keys result, event = .synchronized keys result → key ∈ keys)
    (hgives : catalog.Gives before locale key text) (hsome : ¬ Text.Blank text) :
    ∃ text', catalog.Gives after locale key text' ∧ ¬ Text.Blank text' ∧
      (text' ≠ text →
        (∃ result, event = .merged result) ∧ catalog.Offers before locale key text') := by
  have hsame (hafter : catalog.Gives after locale key text) : ∃ text',
      catalog.Gives after locale key text' ∧ ¬ Text.Blank text' ∧ (text' ≠ text →
        (∃ result, event = .merged result) ∧ catalog.Offers before locale key text') :=
    ⟨text, hafter, hsome, fun hne => absurd rfl hne⟩
  have ⟨store, hread, htext⟩ := hgives
  have hload := Catalog.loadStore_of_readFile hread
  rcases h.store_cases hapart hlocale with hkept | hrebuilt | hmerged
  · exact hsame (hgives.of_kept hkept)
  · -- a rebuilt store has the text of each of its keys
    obtain ⟨keys, result, prior, hevent, hprior, hwritten⟩ := hrebuilt
    rw [hload] at hprior
    cases hprior
    have hkey := hkeys keys result hevent
    refine hsame ⟨_, readFile_messages hwritten, ?_⟩
    rw [Sync.getElem?_rebuild, if_pos hkey, decide_eq_false hother, if_neg Bool.false_ne_true]
    unfold Messages.textOf
    rw [htext]
    rfl
  · obtain ⟨result, canonical, batch, entries, prior, hevent, hmergeable, hentries, hprior,
      hwritten⟩ := hmerged
    rw [hload] at hprior
    cases hprior
    have htexts := hmergeable.not_blank hentries
    have hafter : (Merge.applyEntries store entries)[key]? = entries[key]?.or store[key]? :=
      Merge.getElem?_applyEntries htexts key
    cases hentry : entries[key]? with
    | none =>
      rw [hentry, Option.none_or, htext] at hafter
      exact hsame ⟨_, readFile_messages hwritten, hafter⟩
    | some text' =>
      rw [hentry, Option.some_or] at hafter
      refine ⟨text', ⟨_, readFile_messages hwritten, hafter⟩, htexts key text' hentry, fun _ => ?_⟩
      refine ⟨⟨result, hevent⟩, batch, hmergeable.loadBatch, ?_⟩
      rw [Sync.heldText_eq, Option.getD_some, hentries]
      exact hentry

/-! ## 3. The batch -/

/-- A text that the batch offers for a key without one is still offered after a synchronization. -/
theorem carried_of_synchronize {keys : KeySet} {report : Sync.Report} {store : Messages}
    (hapart : catalog.Apart before.current)
    (h : runIn (Sync.synchronize catalog keys) before = (.ok report, after))
    (hlocale : locale ∈ catalog.locales) (hother : locale ≠ catalog.locales.canonical)
    (hkey : key ∈ keys) (hstore : catalog.loadStore locale before = .ok store)
    (hblank : Text.Blank (store.textOf key)) (hoffers : catalog.Offers before locale key text)
    (hsome : ¬ Text.Blank text) : catalog.Offers after locale key text := by
  obtain ⟨contents, hloads⟩ := Sync.exists_loads_of_synchronize h
  obtain ⟨hholds, -⟩ := Sync.holds_of_synchronize hapart hloads h
  obtain ⟨batch, hbatch, hheld⟩ := hoffers
  -- the contents that were loaded are those that the batch and the store were said to have
  have hprevious := hloads.batch
  rw [hbatch] at hprevious
  have hprior := hloads.store locale hlocale
  rw [hstore] at hprior
  cases hprior
  have hpending : key ∈ contents.pending catalog.locales keys locale :=
    Contents.mem_pending.2 ⟨hother, hkey, hblank⟩
  have hcarried := Sync.heldText_synchronized hlocale hpending
  rw [← Except.ok.inj hprevious, hheld, Option.filter_some, if_pos (by simpa using hsome)] at hcarried
  cases hnew : (contents.synchronized catalog.locales keys).batch with
  | none =>
    rw [hnew] at hcarried
    cases hcarried
  | some new =>
    rw [hnew] at hcarried
    have hload := hholds.batch.loadBatch
    rw [hnew] at hload
    exact ⟨new, hload, hcarried⟩

/-! ## 4. Histories -/

theorem History.states_append (steps : List Step) (step : Step) :
    History.states start (steps ++ [step]) = History.states start steps ++ [step.after] := by
  unfold History.states
  rw [List.map_append]
  rfl

/-- Where a key is translated in one state of a history, so it is in all later ones. -/
theorem History.pairwise_translates (hapart : catalog.Apart start.current)
    (h : History catalog start steps last) (hlocale : locale ∈ catalog.locales)
    (hother : locale ≠ catalog.locales.canonical)
    (hkeys : ∀ step ∈ steps, ∀ keys result, step.event = .synchronized keys result → key ∈ keys) :
    (History.states start steps).Pairwise (fun earlier later =>
        catalog.Translates locale key earlier → catalog.Translates locale key later) ∧
      ∀ state ∈ History.states start steps,
        catalog.Translates locale key state → catalog.Translates locale key last := by
  -- carried along is that no state is translated where the last one is not
  induction h with
  | start =>
    refine ⟨List.pairwise_singleton _ _, fun state hstate htranslates => ?_⟩
    obtain rfl := List.mem_singleton.1 hstate
    exact htranslates
  | @step steps before after event hbefore hleads ih =>
    obtain ⟨hpairwise, hlast⟩ := ih fun step hstep => hkeys step (List.mem_append_left _ hstep)
    have hnew := hkeys _ (List.mem_append_right _ List.mem_cons_self)
    have hstep : catalog.Translates locale key before → catalog.Translates locale key after := by
      rintro ⟨text, hgives, hsome⟩
      obtain ⟨text', hgives', hsome', -⟩ :=
        hleads.gives (hbefore.apart hapart) hlocale hother hnew hgives hsome
      exact ⟨text', hgives', hsome'⟩
    have hearlier : ∀ state ∈ History.states start steps,
        catalog.Translates locale key state → catalog.Translates locale key after :=
      fun state hstate htranslates => hstep (hlast state hstate htranslates)
    rw [History.states_append]
    constructor
    · refine List.pairwise_append.2 ⟨hpairwise, List.pairwise_singleton _ _, ?_⟩
      intro earlier hmem later hlater
      obtain rfl := List.mem_singleton.1 hlater
      exact hearlier earlier hmem
    · intro state hstate
      rcases List.mem_append.1 hstate with hmem | hnew
      · exact hearlier state hmem
      · obtain rfl := List.mem_singleton.1 hnew
        exact id

/-- However synchronizations, merges and edits of the batch follow each other and however each of
    them ends, no translation of a key that stays in the sources is lost. -/
theorem retained_of_history (hapart : catalog.Apart start.current)
    (h : History catalog start steps last) (hlocale : locale ∈ catalog.locales)
    (hother : locale ≠ catalog.locales.canonical)
    (hkeys : ∀ step ∈ steps, ∀ keys result, step.event = .synchronized keys result → key ∈ keys) :
    Retained catalog locale key start steps := by
  constructor
  case kept => exact (h.pairwise_translates hapart hlocale hother hkeys).1
  case replaced =>
    intro step hstep text text' hgives hsome hgives' hne
    obtain ⟨hapart', hleads⟩ := h.leads hapart hstep
    obtain ⟨new, hnew, -, hreplaced⟩ :=
      hleads.gives hapart' hlocale hother (hkeys step hstep) hgives hsome
    rw [hnew.unique hgives'] at hne
    rw [hnew.unique hgives']
    exact hreplaced hne
  case carried =>
    intro step hstep keys report store text hevent hstore hblank hoffers hsome
    obtain ⟨hapart', hleads⟩ := h.leads hapart hstep
    rw [hevent] at hleads
    exact carried_of_synchronize hapart' hleads hlocale hother
      (hkeys step hstep keys _ hevent) hstore hblank hoffers hsome

/-- A merge in which the disk refuses one of two stores, before the disk accepts it and the rest of
    the batch is synchronized and merged. -/
theorem History.exists_refused : ∃ failed synced merged first second third last,
    failed.failures.keys = ["de"] ∧ merged.failures.keys = [] ∧
    History .trio .refusing
      [⟨.refusing, .merged (.ok failed), first⟩, ⟨first, .restricted, second⟩,
        ⟨second, .synchronized (.ofList ["a"]) (.ok synced), third⟩,
        ⟨third, .merged (.ok merged), last⟩] last := by
  let first := (runIn (Merge.merge .trio) .refusing).2
  let second : Workspace := { first with tree := { first.tree with refusals := fun _ => none } }
  let third := (runIn (Sync.synchronize .trio (.ofList ["a"])) second).2
  obtain ⟨failed, hfailed, hrefused⟩ := FileAction.exists_of_any (Merge.merge .trio) .refusing
    (fun report => report.failures.keys = ["de"]) (by decide +kernel)
  obtain ⟨synced, hsync⟩ := FileAction.exists_of_isOk
    (Sync.synchronize .trio (.ofList ["a"])) second (by decide +kernel)
  obtain ⟨merged, hmerge, hwhole⟩ := FileAction.exists_of_any (Merge.merge .trio) third
    (fun report => report.failures.keys = []) (by decide +kernel)
  have hmerged : (Event.merged (.ok failed)).Leads .trio .refusing first := hfailed
  have haccepted : Event.restricted.Leads .trio first second := ⟨rfl, fun _ _ => .inl rfl⟩
  have hsynced : (Event.synchronized (.ofList ["a"]) (.ok synced)).Leads .trio second third := hsync
  have hmerged' : (Event.merged (.ok merged)).Leads .trio third _ := hmerge
  exact ⟨failed, synced, merged, first, second, third, _, of_decide_eq_true hrefused,
    of_decide_eq_true hwhole, .step (.step (.step (.step .start hmerged) haccepted) hsynced) hmerged'⟩

/-- In the example a store that can be read is refused at first, and translated in the end. -/
theorem retained_sample : ∃ store failed synced merged first second third last,
    Catalog.trio.loadStore "de" .refusing = .ok store ∧
    failed.failures.keys = ["de"] ∧ merged.failures.keys = [] ∧
    Retained .trio "de" "a" .refusing
      [⟨.refusing, .merged (.ok failed), first⟩, ⟨first, .restricted, second⟩,
        ⟨second, .synchronized (.ofList ["a"]) (.ok synced), third⟩,
        ⟨third, .merged (.ok merged), last⟩] := by
  obtain ⟨failed, synced, merged, first, second, third, last, hrefused, hwhole, hhistory⟩ :=
    History.exists_refused
  refine ⟨_, failed, synced, merged, first, second, third, last, Catalog.loadStore_refusing, hrefused,
    hwhole, retained_of_history (by decide +kernel) hhistory (by decide) (by decide) ?_⟩
  intro step hstep keys result hevent
  simp only [List.mem_cons, List.not_mem_nil, or_false] at hstep
  rcases hstep with rfl | rfl | rfl | rfl <;> cases hevent
  decide +kernel

end LocaleCatalog
