import Mathlib.Algebra.Ring.Nat
import LocaleCatalog.Proofs.Catalog.Storage
import LocaleCatalog.Proofs.Merge.Plan

/-!
# What the writing of the stores does

`Merge.Writes` is the writing of the targets as a relation, with a case for each thing that can
become of the first target: it has no entry with a text, its store was written, or it could not be
written. `Merge.writes_of_writeTargets` says that the writing always comes to an end and is such a
derivation; what holds at its end is proved by induction on it:

* `Merge.Writes.eq_nil_iff`: nothing was merged and nothing failed just if there was nothing to
  write, and then nothing was changed;
* `Merge.Writes.changed`: only the stores of merged locales hold something else;
* `Merge.Writes.readBytes`: each of them holds its messages with the entries, and the disk has
  accepted it (`Merge.Writes.accepts`);
* `Merge.Writes.mem_merged_iff`, `Merge.Writes.exists_of_mem_failures`: what is reported.
-/

namespace LocaleCatalog.Merge

open FileAction (runIn Within Changes)
open Workspace (Changed Heeded)

/-! ## 1. The relation -/

variable {catalog : Catalog} {before after : Workspace} {targets : List Target}
  {merged : List (String × Nat)} {failures : Failures}

/-- The save of a target. -/
def Target.save (target : Target) (catalog : Catalog) : FileAction StoreError Unit :=
  catalog.saveStore target.locale (applyEntries target.store target.entries)

theorem Target.within_save {current : Location} (hapart : catalog.Apart current) {target : Target}
    (hlocale : target.locale ∈ catalog.locales.locales) :
    Within current {catalog.storePlace current target.locale}
      {catalog.storePlace current target.locale} (target.save catalog) :=
  catalog.within_saveStore hapart hlocale _

/-- From the first workspace to the last, the targets were written one after the other; some were
    merged, and some failed. -/
inductive Writes (catalog : Catalog) :
    Workspace → List Target → List (String × Nat) → Failures → Workspace → Prop where
  | nil (workspace : Workspace) : Writes catalog workspace [] [] ∅ workspace
  | skip {before after : Workspace} {target : Target} {more : List Target}
      {merged : List (String × Nat)} {failures : Failures}
      (hnone : filledEntries target.entries = [])
      (hmore : Writes catalog before more merged failures after) :
      Writes catalog before (target :: more) merged failures after
  | stored {before between after : Workspace} {target : Target} {more : List Target}
      {merged : List (String × Nat)} {failures : Failures}
      (hsome : filledEntries target.entries ≠ [])
      (hsave : runIn (target.save catalog) before = (.ok (), between))
      (hmore : Writes catalog between more merged failures after) :
      Writes catalog before (target :: more)
        ((target.locale, (filledEntries target.entries).length) :: merged) failures after
  | failed {before between after : Workspace} {target : Target} {more : List Target}
      {merged : List (String × Nat)} {failures : Failures} {error : StoreError}
      (hsome : filledEntries target.entries ≠ [])
      (hsave : runIn (target.save catalog) before = (.error error, between))
      (hmore : Writes catalog between more merged failures after) :
      Writes catalog before (target :: more) merged (failures.insert target.locale error) after

theorem writeTargets_cons (target : Target) (more : List Target) :
    writeTargets catalog (target :: more) =
      if (filledEntries target.entries).length = 0 then writeTargets catalog more
      else do
        let saved ← FileAction.outcome (target.save catalog)
        let ⟨merged, locales, failures⟩ ← writeTargets catalog more
        match saved with
        | .ok () =>
          return ⟨(filledEntries target.entries).length + merged,
            (target.locale, (filledEntries target.entries).length) :: locales, failures⟩
        | .error error => return ⟨merged, locales, failures.insert target.locale error⟩ := by
  rfl

/-- How many entries these are together. -/
def countOf (merged : List (String × Nat)) : Nat :=
  (merged.map (·.2)).sum

/-- The writing of the targets comes to an end, whatever fails on the way, and counts the entries of
    all locales that were merged. -/
theorem writes_of_writeTargets (catalog : Catalog) (targets : List Target) (before : Workspace) :
    ∃ merged failures after, runIn (writeTargets catalog targets) before =
        (.ok ⟨countOf merged, merged, failures⟩, after) ∧
      Writes catalog before targets merged failures after := by
  induction targets generalizing before with
  | nil => exact ⟨[], ∅, before, by rfl, .nil before⟩
  | cons target more ih =>
    rw [writeTargets_cons]
    by_cases hnone : filledEntries target.entries = []
    · obtain ⟨merged, failures, after, hrun, hmore⟩ := ih before
      rw [if_pos (List.length_eq_zero_iff.2 hnone)]
      exact ⟨merged, failures, after, hrun, .skip hnone hmore⟩
    · rw [if_neg fun hlength => hnone (List.length_eq_zero_iff.1 hlength)]
      rcases hsave : runIn (target.save catalog) before with ⟨saved, between⟩
      obtain ⟨merged, failures, after, hrun, hmore⟩ := ih between
      rw [FileAction.run_bind, FileAction.run_outcome, hsave]
      dsimp only
      rw [FileAction.run_bind, hrun]
      cases saved with
      | ok => exact ⟨_, failures, after, rfl, .stored hnone hsave hmore⟩
      | error error => exact ⟨merged, _, after, rfl, .failed hnone hsave hmore⟩

namespace Writes

/-! ## 2. What was merged, and what failed -/

/-- A locale that was merged had entries with a text. -/
theorem count_ne_zero (h : Writes catalog before targets merged failures after) :
    ∀ locale ∈ merged, locale.2 ≠ 0 := by
  induction h with
  | nil => exact fun _ hmem => absurd hmem List.not_mem_nil
  | skip _ _ ih => exact ih
  | stored hsome _ _ ih =>
    exact List.forall_mem_cons.2 ⟨fun hlength => hsome (List.length_eq_zero_iff.1 hlength), ih⟩
  | failed _ _ _ ih => exact ih

/-- Only locales that were to be written are merged, in the same order. -/
theorem sublist (h : Writes catalog before targets merged failures after) :
    (merged.map (·.1)).Sublist (targets.map (·.locale)) := by
  induction h with
  | nil => exact List.nil_sublist _
  | skip _ _ ih => exact ih.cons _
  | stored _ _ _ ih => exact ih.cons_cons _
  | failed _ _ _ ih => exact ih.cons _

/-- Nothing is counted just if no locale was merged. -/
theorem countOf_eq_zero_iff (h : Writes catalog before targets merged failures after) :
    countOf merged = 0 ↔ merged = [] := by
  cases h' : merged with
  | nil => exact iff_of_true rfl rfl
  | cons first more =>
    have hsome : first.2 ≠ 0 := h.count_ne_zero first (h' ▸ List.mem_cons_self)
    simp [countOf, hsome]

/-- A locale that failed had an entry with a text. -/
theorem exists_of_mem_failures (h : Writes catalog before targets merged failures after)
    {locale : String} (hfailed : locale ∈ failures) :
    ∃ target ∈ targets, target.locale = locale ∧ filledEntries target.entries ≠ [] := by
  induction h with
  | nil => exact absurd hfailed Std.ExtTreeMap.not_mem_empty
  | skip _ _ ih =>
    obtain ⟨target, htarget, hfound⟩ := ih hfailed
    exact ⟨target, List.mem_cons_of_mem _ htarget, hfound⟩
  | stored _ _ _ ih =>
    obtain ⟨target, htarget, hfound⟩ := ih hfailed
    exact ⟨target, List.mem_cons_of_mem _ htarget, hfound⟩
  | failed hsome _ _ ih =>
    rcases Std.ExtTreeMap.mem_insert.1 hfailed with hsame | hmore
    · exact ⟨_, List.mem_cons_self, Std.LawfulEqOrd.eq_of_compare hsame, hsome⟩
    · obtain ⟨target, htarget, hfound⟩ := ih hmore
      exact ⟨target, List.mem_cons_of_mem _ htarget, hfound⟩

theorem mem_of_mem_failures (h : Writes catalog before targets merged failures after)
    {locale : String} (hfailed : locale ∈ failures) : locale ∈ targets.map (·.locale) := by
  obtain ⟨target, htarget, rfl, -⟩ := h.exists_of_mem_failures hfailed
  exact List.mem_map_of_mem htarget

/-- Nothing was merged and nothing failed, just if no target has an entry with a text. -/
theorem eq_nil_iff (h : Writes catalog before targets merged failures after) :
    merged = [] ∧ failures = ∅ ↔ ∀ target ∈ targets, filledEntries target.entries = [] := by
  induction h with
  | nil => exact iff_of_true ⟨rfl, rfl⟩ fun _ hmem => absurd hmem List.not_mem_nil
  | skip hnone _ ih => rw [ih, List.forall_mem_cons, and_iff_right hnone]
  | stored hsome _ _ _ =>
    refine iff_of_false (fun hnil => ?_) fun hall => hsome (hall _ List.mem_cons_self)
    exact List.cons_ne_nil _ _ hnil.1
  | failed hsome _ _ _ =>
    refine iff_of_false (fun hnil => ?_) fun hall => hsome (hall _ List.mem_cons_self)
    exact Std.ExtTreeMap.eq_empty_iff_forall_not_mem.1 hnil.2 _ Std.ExtTreeMap.mem_insert_self

/-- Without entries that have a text nothing is changed. -/
theorem eq_of_forall (h : Writes catalog before targets merged failures after)
    (hnone : ∀ target ∈ targets, filledEntries target.entries = []) : after = before := by
  induction h with
  | nil => rfl
  | skip _ _ ih => exact ih fun target htarget => hnone target (List.mem_cons_of_mem _ htarget)
  | stored hsome _ _ _ => exact absurd (hnone _ List.mem_cons_self) hsome
  | failed hsome _ _ _ => exact absurd (hnone _ List.mem_cons_self) hsome

/-- A locale is merged just if it has entries with a text and did not fail; all of them are
    counted. -/
theorem mem_merged_iff (h : Writes catalog before targets merged failures after)
    (hnodup : (targets.map (·.locale)).Nodup) {locale : String} {n : Nat} :
    (locale, n) ∈ merged ↔ ∃ target ∈ targets, target.locale = locale ∧
      filledEntries target.entries ≠ [] ∧ n = (filledEntries target.entries).length ∧
        locale ∉ failures := by
  induction h with
  | nil =>
    refine iff_of_false List.not_mem_nil ?_
    rintro ⟨target, htarget, -⟩
    exact List.not_mem_nil htarget
  | skip hnone _ ih =>
    rw [List.map_cons, List.nodup_cons] at hnodup
    rw [ih hnodup.2]
    constructor
    · rintro ⟨target, htarget, hfound⟩
      exact ⟨target, List.mem_cons_of_mem _ htarget, hfound⟩
    · rintro ⟨target, htarget, hname, hsome, hfound⟩
      rcases List.mem_cons.1 htarget with rfl | htarget
      · exact absurd hnone hsome
      · exact ⟨target, htarget, hname, hsome, hfound⟩
  | stored hsome _ hmore ih =>
    rw [List.map_cons, List.nodup_cons] at hnodup
    rw [List.mem_cons, ih hnodup.2, Prod.mk.injEq]
    constructor
    · rintro (⟨rfl, rfl⟩ | ⟨target, htarget, hfound⟩)
      · refine ⟨_, List.mem_cons_self, rfl, hsome, rfl, fun hfailed => ?_⟩
        exact hnodup.1 (hmore.mem_of_mem_failures hfailed)
      · exact ⟨target, List.mem_cons_of_mem _ htarget, hfound⟩
    · rintro ⟨target, htarget, rfl, hfilled, rfl, hfound⟩
      rcases List.mem_cons.1 htarget with rfl | htarget
      · exact .inl ⟨rfl, rfl⟩
      · exact .inr ⟨target, htarget, rfl, hfilled, rfl, hfound⟩
  | failed hsome _ hmore ih =>
    rw [List.map_cons, List.nodup_cons] at hnodup
    rw [ih hnodup.2]
    constructor
    · rintro ⟨target, htarget, rfl, hfilled, rfl, hfound⟩
      refine ⟨target, List.mem_cons_of_mem _ htarget, rfl, hfilled, rfl, fun hfailed => ?_⟩
      rcases Std.ExtTreeMap.mem_insert.1 hfailed with hsame | hfailed
      · exact hnodup.1 (Std.LawfulEqOrd.eq_of_compare hsame ▸ List.mem_map_of_mem htarget)
      · exact hfound hfailed
    · rintro ⟨target, htarget, rfl, hfilled, rfl, hfound⟩
      rw [Std.ExtTreeMap.mem_insert, not_or] at hfound
      rcases List.mem_cons.1 htarget with rfl | htarget
      · exact absurd Std.ReflCmp.compare_self hfound.1
      · exact ⟨target, htarget, rfl, hfilled, rfl, hfound.2⟩

/-! ## 3. What was written -/

/-- The stores of merged locales hold something else, and no other file does. -/
theorem changed (h : Writes catalog before targets merged failures after)
    (hapart : catalog.Apart before.current)
    (hlocales : ∀ target ∈ targets, target.locale ∈ catalog.locales.locales) :
    Changed (catalog.storePlaces before.current (merged.map (·.1)))
      (catalog.storePlaces before.current (targets.map (·.locale))) before after := by
  induction h with
  | nil workspace => exact .refl _ _ workspace
  | skip _ _ ih =>
    exact (ih hapart fun target htarget => hlocales target (List.mem_cons_of_mem _ htarget)).mono
      (le_refl _) (Catalog.storePlaces_subset (List.subset_cons_self _ _))
  | @stored before between _ target _ _ _ _ hsave _ ih =>
    have hfirst := hlocales target List.mem_cons_self
    have hsaved := (Target.within_save hapart hfirst).changed hsave
    have hcurrent : between.current = before.current := hsaved.current
    have hmore := ih (hcurrent ▸ hapart) fun other hother =>
      hlocales other (List.mem_cons_of_mem _ hother)
    rw [hcurrent] at hmore
    exact (hsaved.mono (Catalog.singleton_subset_storePlaces List.mem_cons_self)
      (Catalog.singleton_subset_storePlaces List.mem_cons_self)).trans
      (hmore.mono (Catalog.storePlaces_subset (List.subset_cons_self _ _))
        (Catalog.storePlaces_subset (List.subset_cons_self _ _)))
  | @failed before between _ target _ _ _ _ _ hsave _ ih =>
    have hfirst := hlocales target List.mem_cons_self
    have hkept := changed_of_writeFile_error (hapart.plain_store hfirst) hsave
    have hcurrent : between.current = before.current := hkept.current
    have hmore := ih (hcurrent ▸ hapart) fun other hother =>
      hlocales other (List.mem_cons_of_mem _ hother)
    rw [hcurrent] at hmore
    exact (hkept.mono (Set.empty_subset _)
      (Catalog.singleton_subset_storePlaces List.mem_cons_self)).trans
      (hmore.mono (le_refl _) (Catalog.storePlaces_subset (List.subset_cons_self _ _)))

/-- A target that did not fail has its entries in its store. -/
theorem readBytes (h : Writes catalog before targets merged failures after)
    (hapart : catalog.Apart before.current)
    (hlocales : ∀ target ∈ targets, target.locale ∈ catalog.locales.locales)
    (hnodup : (targets.map (·.locale)).Nodup) :
    ∀ target ∈ targets, filledEntries target.entries ≠ [] → target.locale ∉ failures →
      after.readBytes (catalog.storePath target.locale) =
        .ok (applyEntries target.store target.entries).write.toUTF8 := by
  induction h with
  | nil => exact fun _ hmem => absurd hmem List.not_mem_nil
  | skip hnone _ ih =>
    rw [List.map_cons, List.nodup_cons] at hnodup
    intro target htarget hfilled hstored
    rcases List.mem_cons.1 htarget with rfl | htarget
    · exact absurd hnone hfilled
    · exact ih hapart (fun other hother => hlocales other (List.mem_cons_of_mem _ hother))
        hnodup.2 target htarget hfilled hstored
  | @stored before between after first more merged failures _ hsave hmore ih =>
    rw [List.map_cons, List.nodup_cons] at hnodup
    have hfirst := hlocales first List.mem_cons_self
    have hlocales' : ∀ target ∈ more, target.locale ∈ catalog.locales.locales :=
      fun other hother => hlocales other (List.mem_cons_of_mem _ hother)
    have hsaved := (Target.within_save hapart hfirst).changed hsave
    have hcurrent : between.current = before.current := hsaved.current
    have hapart' : catalog.Apart between.current := hcurrent ▸ hapart
    intro target htarget hfilled hstored
    rcases List.mem_cons.1 htarget with rfl | htarget
    · -- the stores that are written later are others
      refine hapart'.readBytes_store hfirst (hmore.changed hapart' hlocales') ?_
        (Catalog.readBytes_of_saveStore hsave)
      rintro _ ⟨other, hother, rfl⟩
      have hmem := hmore.sublist.subset hother
      obtain ⟨later, hlater, rfl⟩ := List.mem_map.1 hmem
      exact .inr ⟨_, hlocales' later hlater, fun heq => hnodup.1 (heq ▸ hmem), rfl⟩
    · exact ih hapart' hlocales' hnodup.2 target htarget hfilled hstored
  | @failed before between _ first _ _ _ _ _ hsave _ ih =>
    rw [List.map_cons, List.nodup_cons] at hnodup
    have hfirst := hlocales first List.mem_cons_self
    have hkept := changed_of_writeFile_error (hapart.plain_store hfirst) hsave
    have hcurrent : between.current = before.current := hkept.current
    intro target htarget hfilled hstored
    rw [Std.ExtTreeMap.mem_insert, not_or] at hstored
    rcases List.mem_cons.1 htarget with rfl | htarget
    · exact absurd Std.ReflCmp.compare_self hstored.1
    · exact ih (hcurrent ▸ hapart)
        (fun other hother => hlocales other (List.mem_cons_of_mem _ hother))
        hnodup.2 target htarget hfilled hstored.2

/-- Whatever the changes of a tree move along, the writing moves along. -/
theorem moves {related : Workspace → Workspace → Prop} [Changes related]
    (h : Writes catalog before targets merged failures after) : related before after := by
  induction h with
  | nil workspace => exact refl_of related workspace
  | skip _ _ ih => exact ih
  | stored _ hsave _ ih =>
    exact trans_of related ((catalog.moves_saveStore _ _).of_run hsave) ih
  | failed _ hsave _ ih =>
    exact trans_of related ((catalog.moves_saveStore _ _).of_run hsave) ih

/-- The disk has accepted the store of a target that did not fail. -/
theorem accepts (h : Writes catalog before targets merged failures after) :
    ∀ target ∈ targets, filledEntries target.entries ≠ [] → target.locale ∉ failures →
      before.Accepts (catalog.storePath target.locale) := by
  induction h with
  | nil => exact fun _ hmem => absurd hmem List.not_mem_nil
  | skip hnone _ ih =>
    intro target htarget hfilled hstored
    rcases List.mem_cons.1 htarget with rfl | htarget
    · exact absurd hnone hfilled
    · exact ih target htarget hfilled hstored
  | @stored before between _ _ _ _ _ _ hsave _ ih =>
    have hheeded : Heeded before between := (catalog.moves_saveStore _ _).of_run hsave
    intro target htarget hfilled hstored
    rcases List.mem_cons.1 htarget with rfl | htarget
    · exact accepts_of_writeFile hsave
    · exact hheeded.accepts_iff.1 (ih target htarget hfilled hstored)
  | @failed before between _ _ _ _ _ _ _ hsave _ ih =>
    have hheeded : Heeded before between := (catalog.moves_saveStore _ _).of_run hsave
    intro target htarget hfilled hstored
    rw [Std.ExtTreeMap.mem_insert, not_or] at hstored
    rcases List.mem_cons.1 htarget with rfl | htarget
    · exact absurd Std.ReflCmp.compare_self hstored.1
    · exact hheeded.accepts_iff.1 (ih target htarget hfilled hstored.2)

end Writes

/-! ## 4. The whole run -/

theorem run_merge_of_error {error : Error} (h : Plan.make catalog before = .error error) :
    runIn (merge catalog) before = (.error error, before) := by
  unfold merge
  rw [FileAction.run_bind, FileAction.run_inspect, h]

/-- A plan is carried out: the stores are written, then the batch is retired, unless nothing came of
    it all. -/
theorem run_merge {plan : Plan} (h : Plan.make catalog before = .ok plan) :
    ∃ merged unwritten between, Writes catalog before plan.targets merged unwritten between ∧
      runIn (writeTargets catalog plan.targets) before =
        (.ok ⟨countOf merged, merged, unwritten⟩, between) ∧
      runIn (merge catalog) before =
        if merged = [] ∧ (plan.unreadable ∪ unwritten).isEmpty = true then
          (.error .nothingMerged, between)
        else
          match runIn (retireBatch catalog plan.batch (plan.unreadable ∪ unwritten)) between with
          | (.ok retired, after) =>
            (.ok ⟨countOf merged, merged, plan.unreadable ∪ unwritten, retired⟩, after)
          | (.error failure, after) => (.error (.store failure), after) := by
  obtain ⟨merged, unwritten, between, hrun, hwrites⟩ :=
    writes_of_writeTargets catalog plan.targets before
  refine ⟨merged, unwritten, between, hwrites, hrun, ?_⟩
  unfold merge
  rw [FileAction.run_bind, FileAction.run_inspect, h]
  dsimp only
  unfold Plan.commit
  rw [FileAction.run_bind, hrun]
  simp only [hwrites.countOf_eq_zero_iff]
  split
  · rfl
  · rw [FileAction.run_bind, FileAction.run_mapError]
    rcases runIn (retireBatch catalog plan.batch (plan.unreadable ∪ unwritten)) between with
      ⟨result, after⟩
    cases result <;> rfl

end LocaleCatalog.Merge
