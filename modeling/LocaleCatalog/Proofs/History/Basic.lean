import LocaleCatalog.Command.Run
import LocaleCatalog.Proofs.Merge.Ending
import LocaleCatalog.Proofs.Sync.Write

/-!
# Histories of a catalog

A catalog is synchronized, merged and looked at, in any order and with any outcome. Between these
runs its batch is edited by hand, and the disk comes to refuse other changes than before. An `Event`
is one such step with its outcome, and a `History` is a finite sequence of them.

* `Event.Leads` says which workspaces an event can lead to. An edit may do anything to the batch
  file, and nothing to other files;
* `Event.Leads.changed`: no event changes a file outside of the catalog, and none moves the
  directory that paths start from, so files that are apart stay apart (`History.apart`);
* `Event.Leads.store_cases`: all that an event can do to a store.
-/

namespace LocaleCatalog

open FileAction (runIn)
open Workspace (Changed Kept)

/-! ## 1. Events -/

/-- What can happen to the files of a catalog. -/
inductive Event where
  | synchronized (keys : KeySet) (result : Except StoreError Sync.Report)
  | merged (result : Except Merge.Error Merge.Report)
  /-- The status of a project was asked for. -/
  | inspected (options : Command.Options) (result : Except Command.Error Command.Outcome)
  /-- The batch file was replaced or taken away by other means. -/
  | edited
  /-- The disk came to refuse other changes than before: a file was locked, or room was made. -/
  | restricted

/-- The event can lead from one workspace to the other. -/
def Event.Leads (catalog : Catalog) (before after : Workspace) : Event → Prop
  | .synchronized keys result => runIn (Sync.synchronize catalog keys) before = (result, after)
  | .merged result => runIn (Merge.merge catalog) before = (result, after)
  | .inspected options result => runIn (Command.projectStatus options) before = (result, after)
  | .edited =>
    Changed {catalog.batchPlace before.current} {catalog.batchPlace before.current} before after
  | .restricted => Changed ∅ ∅ before after

/-- An event with the workspaces before and after it. -/
structure Step where
  before : Workspace
  event : Event
  after : Workspace

/-- The steps lead from one workspace to the other, each from where the one before it ended. -/
inductive History (catalog : Catalog) (start : Workspace) : List Step → Workspace → Prop where
  | start : History catalog start [] start
  | step {steps : List Step} {before after : Workspace} {event : Event}
      (h : History catalog start steps before) (hleads : event.Leads catalog before after) :
      History catalog start (steps ++ [⟨before, event, after⟩]) after

/-! ## 2. What an event can do -/

variable {catalog : Catalog} {start before after last : Workspace} {event : Event}

/-- Looking at a project changes nothing. -/
theorem run_projectStatus (options : Command.Options) (workspace : Workspace) :
    (runIn (Command.projectStatus options) workspace).2 = workspace := by
  unfold Command.projectStatus
  rw [FileAction.run_bind, FileAction.run_inspect]
  cases (options.openProject workspace).mapError Command.Error.config with
  | error error => rfl
  | ok project =>
    dsimp only
    rw [FileAction.run_bind, FileAction.run_inspect]
    cases (project.catalog.loadBatch workspace).mapError Command.Error.store <;> rfl

theorem eq_of_projectStatus {options : Command.Options}
    {result : Except Command.Error Command.Outcome}
    (h : runIn (Command.projectStatus options) before = (result, after)) : after = before := by
  have hsame := run_projectStatus options before
  rw [h] at hsame
  exact hsame

namespace Event.Leads

variable (hapart : catalog.Apart before.current) (h : event.Leads catalog before after)

include hapart h

/-- No event changes a file outside of the catalog. -/
theorem changed :
    Changed (catalog.places before.current) (catalog.places before.current) before after := by
  cases event with
  | synchronized keys result => exact Sync.changed_of_synchronize hapart h
  | merged result => exact Merge.changed_of_merge hapart h
  | inspected options result =>
    rw [eq_of_projectStatus h]
    exact .refl _ _ before
  | edited =>
    exact Changed.mono h Catalog.batchPlace_subset_places Catalog.batchPlace_subset_places
  | restricted => exact Changed.mono h (Set.empty_subset _) (Set.empty_subset _)

theorem apart : catalog.Apart after.current := by
  rw [(changed hapart h).current]
  exact hapart

/-- An event keeps a store, or rebuilds it with the keys of a synchronization, or puts the entries of
    a batch into it. -/
theorem store_cases {locale : String} (hlocale : locale ∈ catalog.locales.locales) :
    Kept (catalog.storePath locale) before after ∨
    (∃ keys result prior, event = .synchronized keys result ∧
      catalog.loadStore locale before = .ok prior ∧
      after.readBytes (catalog.storePath locale) =
        .ok (Sync.rebuild keys prior (locale = catalog.locales.canonical)).write.toUTF8) ∨
    ∃ result canonical batch entries prior, event = .merged result ∧
      Merge.Mergeable catalog before canonical batch ∧ batch[locale]? = some entries ∧
      catalog.loadStore locale before = .ok prior ∧
      after.readBytes (catalog.storePath locale) =
        .ok (Merge.applyEntries prior entries).write.toUTF8 := by
  cases event with
  | synchronized keys result =>
    rcases Sync.stores_of_synchronize hapart h hlocale with hkept | ⟨prior, hload, hread⟩
    · exact .inl hkept
    · exact .inr (.inl ⟨keys, result, prior, rfl, hload, hread⟩)
  | merged result =>
    rcases Merge.stores_of_merge hapart h hlocale with hkept | ⟨canonical, batch, entries, hmerged⟩
    · exact .inl hkept
    · obtain ⟨prior, hmergeable, hentries, hload, hread⟩ := hmerged
      exact .inr (.inr ⟨result, canonical, batch, entries, prior, rfl, hmergeable, hentries, hload,
        hread⟩)
  | inspected options result =>
    rw [eq_of_projectStatus h]
    exact .inl (.refl _ before)
  | edited => exact .inl (hapart.kept_of_changed_batch hlocale h)
  | restricted =>
    exact .inl (hapart.kept_of_changed_batch hlocale
      (Changed.mono h (Set.empty_subset _) (Set.empty_subset _)))

end Event.Leads

/-- Files that are apart stay apart. -/
theorem History.apart {steps : List Step} (hapart : catalog.Apart start.current)
    (h : History catalog start steps last) : catalog.Apart last.current := by
  induction h with
  | start => exact hapart
  | step _ hleads ih => exact hleads.apart ih

/-- Every step of a history is one that its event can make, between files that are apart. -/
theorem History.leads {steps : List Step} (hapart : catalog.Apart start.current)
    (h : History catalog start steps last) {step : Step} (hstep : step ∈ steps) :
    catalog.Apart step.before.current ∧ step.event.Leads catalog step.before step.after := by
  induction h with
  | start => exact absurd hstep List.not_mem_nil
  | step hbefore hleads ih =>
    rcases List.mem_append.1 hstep with hearlier | hnew
    · exact ih hearlier
    · obtain rfl := List.mem_singleton.1 hnew
      exact ⟨hbefore.apart hapart, hleads⟩

/-! ## 3. An example -/

/-- The example is synchronized, its batch is filled in by hand, and then merged. -/
theorem History.exists_sample : ∃ synced merged first second last,
    History .sample .sample
      [⟨.sample, .synchronized (.ofList ["b", "c"]) (.ok synced), first⟩,
        ⟨first, .edited, second⟩, ⟨second, .merged (.ok merged), last⟩] last := by
  let first := (runIn (Sync.synchronize .sample (.ofList ["b", "c"])) .sample).2
  let filled : Batch := .ofEntries [("fr", .ofEntries [("b", "B"), ("c", "C")])]
  let second := (runIn (Catalog.sample.saveBatch filled) first).2
  obtain ⟨synced, hsync⟩ := FileAction.exists_of_isOk
    (Sync.synchronize .sample (.ofList ["b", "c"])) .sample (by decide +kernel)
  obtain ⟨⟨⟩, hsave⟩ := FileAction.exists_of_isOk (Catalog.sample.saveBatch filled) first
    (by decide +kernel)
  obtain ⟨merged, hmerge⟩ := FileAction.exists_of_isOk (Merge.merge .sample) second
    (by decide +kernel)
  have hsynced : (Event.synchronized (.ofList ["b", "c"]) (.ok synced)).Leads
      .sample .sample first := hsync
  have hedited : Event.edited.Leads .sample first second :=
    (Catalog.saveBatch_spec (hsynced.apart Catalog.apart_sample) hsave).1
  have hmerged : (Event.merged (.ok merged)).Leads .sample second _ := hmerge
  exact ⟨synced, merged, first, second, _, .step (.step (.step .start hsynced) hedited) hmerged⟩

end LocaleCatalog
