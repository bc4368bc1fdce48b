import LocaleCatalog.Proofs.Merge.Completion
import LocaleCatalog.Proofs.Merge.Gate

/-!
# What a merge leaves in each file

`Merge.Settled` says of each file of a catalog what it is after a merge that succeeded, when each
locale of the batch had an entry:

* a store whose locale was merged is the written form of what it held with the entries. Entries that
  it has already change nothing in it (`Merge.applyEntries_self`);
* any other store is kept, and so are the entries of the locales that failed.

`Merge.settled_of_merge` says that every such merge ends so, and `Merge.exists_settled` when there is
one without failures. A part of a batch can be merged wherever the canonical store has the same bytes
(`Merge.Mergeable.transfer`).
-/

namespace LocaleCatalog

open FileAction (runIn)
open Workspace (Changed Kept Heeded)

/-! ## 1. Stores -/

/-- Each locale of the batch has an entry. -/
def Batch.Full (batch : Batch) : Prop :=
  ∀ (locale : String) (entries : Messages), batch[locale]? = some entries → entries ≠ ∅

namespace Catalog

variable {catalog : Catalog} {workspace : Workspace} {locale : String}

/-- The stores of all locales have the same bytes. -/
def SameStores (catalog : Catalog) (first second : Workspace) : Prop :=
  ∀ locale ∈ catalog.locales.locales,
    Workspace.SameBytes (catalog.storePath locale) first second

/-- The store of a locale can be written. -/
def Writable (catalog : Catalog) (workspace : Workspace) (locale : String) : Prop :=
  ∃ messages after, runIn (catalog.saveStore locale messages) workspace = (.ok (), after)

theorem Writable.isOpen {disk : Disk} (h : catalog.Writable disk locale)
    (hplain : (catalog.storePath locale).IsPlain) : disk.Open (catalog.storePath locale) := by
  obtain ⟨messages, after, hsave⟩ := h
  exact .of_run hplain (disk.find?_startOf _) hsave

/-- A store with a message is a file that can be read. -/
theorem exists_readBytes_of_loadStore {messages : Messages} {key : String}
    (hload : catalog.loadStore locale workspace = .ok messages) (hkey : key ∈ messages) :
    ∃ bytes, workspace.readBytes (catalog.storePath locale) = .ok bytes := by
  obtain ⟨found, hfound, hmessages⟩ := bind_eq_ok.1 hload
  cases found with
  | none =>
    cases hmessages
    exact absurd hkey Std.ExtTreeMap.not_mem_empty
  | some store => exact exists_readBytes_of_readFile hfound

end Catalog

namespace Merge

variable {catalog : Catalog} {before after : Workspace} {batch : Batch} {report : Report}
  {locale : String} {entries : Messages}

/-! ## 2. What a merge leaves -/

/-- Entries that a store has already change nothing in it. -/
theorem applyEntries_self {store : Messages}
    (h : ∀ key text : String, entries[key]? = some text → ¬ Text.Blank text) :
    applyEntries (applyEntries store entries) entries = applyEntries store entries := by
  refine Std.ExtTreeMap.ext_getElem? fun key => ?_
  rw [getElem?_applyEntries h, getElem?_applyEntries h, ← Option.or_assoc, Option.or_self]

/-- The files of a catalog after a merge of the batch that succeeded. -/
structure Settled (catalog : Catalog) (batch : Batch) (report : Report)
    (before after : Workspace) : Prop where
  mergeable : ∃ canonical, Mergeable catalog before canonical batch
  asked : ∃ locale, locale ∈ batch
  failed : ∀ locale ∈ report.failures, locale ∈ batch
  merged : ∀ (locale : String) (entries : Messages), batch[locale]? = some entries →
    locale ∉ report.failures → ∃ prior, catalog.loadStore locale before = .ok prior ∧
      after.readBytes (catalog.storePath locale) = .ok (applyEntries prior entries).write.toUTF8
  kept : ∀ locale ∈ catalog.locales.locales, (locale ∈ batch → locale ∈ report.failures) →
    Kept (catalog.storePath locale) before after
  changed : Changed (catalog.places before.current) (catalog.places before.current) before after
  /-- Nothing that the disk refuses to change was touched, so it has accepted all that was. -/
  heeded : Heeded before after
  acceptedStore : ∀ locale ∈ batch, locale ∉ report.failures →
    before.Accepts (catalog.storePath locale)
  acceptedBatch : before.Accepts catalog.batch
  gone : report.failures = ∅ → after.entryAt catalog.batch = .error .notFound
  rest : report.failures ≠ ∅ →
    catalog.loadBatch after = .ok (some (remaining batch report.failures))

theorem settled_of_merge (hapart : catalog.Apart before.current)
    (hbatch : catalog.loadBatch before = .ok (some batch)) (hfull : batch.Full)
    (h : runIn (merge catalog) before = (.ok report, after)) :
    Settled catalog batch report before after := by
  have hchanged := changed_of_merge hapart h
  have hheeded : Heeded before after := (moves_merge catalog).of_run h
  obtain ⟨plan, merged, unwritten, retired, between, hplan, hwrites, hcurrent, rfl, hretire⟩ :=
    writes_of_merge hapart h
  obtain ⟨canonical, hmergeable⟩ := Plan.mergeable hplan
  obtain rfl : plan.batch = batch := by
    have hload := hmergeable.loadBatch
    rw [hbatch] at hload
    cases hload
    rfl
  obtain ⟨hretired, hcases⟩ := retireBatch_cases (hcurrent ▸ hapart) hretire
  constructor
  case mergeable => exact ⟨canonical, hmergeable⟩
  case asked =>
    by_contra hnone
    have hmissing : ∀ locale, locale ∉ plan.batch := fun locale hmem => hnone ⟨locale, hmem⟩
    rw [merge_of_refusal (.nothing hbatch hmergeable.loadCanonical hmergeable.noProblems
      (fun locale hmem => absurd hmem (hmissing locale)) fun locale entries hentries =>
        absurd (mem_iff_exists_getElem?.2 ⟨entries, hentries⟩) (hmissing locale))] at h
    cases h
  case failed =>
    intro locale hlocale
    exact mem_batch_of_mem_failures hplan hwrites hlocale
  case merged =>
    intro locale entries hentries hstored
    rw [Std.ExtTreeMap.mem_union_iff, not_or] at hstored
    obtain ⟨prior, hprior, htarget⟩ := exists_target hplan hentries hstored.1
    exact ⟨prior, hprior, readBytes_of_merged hplan hwrites hapart hretired htarget
      (hfull locale entries hentries) hstored.2⟩
  case kept =>
    intro locale hlocale hfailed
    refine kept_of_no_entries hplan hwrites hapart hretired hlocale fun entries hentries _ => ?_
    exact hfailed (mem_iff_exists_getElem?.2 ⟨entries, hentries⟩)
  case changed => exact hchanged
  case heeded => exact hheeded
  case acceptedStore =>
    intro locale hmem hstored
    rw [Std.ExtTreeMap.mem_union_iff, not_or] at hstored
    obtain ⟨entries, hentries⟩ := mem_iff_exists_getElem?.1 hmem
    obtain ⟨prior, -, htarget⟩ := exists_target hplan hentries hstored.1
    have hfilled : filledEntries entries ≠ [] :=
      filledEntries_ne_nil (hfull locale entries hentries) (Plan.batch_spec hplan hentries).2.2
    exact hwrites.accepts ⟨locale, entries, prior⟩ htarget hfilled hstored.2
  case acceptedBatch =>
    obtain ⟨bytes, hread⟩ := exists_readBytes_of_readFile hbatch
    have hread' : between.readBytes catalog.batch = .ok bytes :=
      hapart.readBytes_batch (merged_subset_locales hplan hwrites)
        (hwrites.changed hapart fun _ htarget => mem_locales_of_mem_targets hplan htarget) hread
    have hfirst : Heeded before between := hwrites.moves
    exact hfirst.accepts_iff.1 (accepts_of_retireBatch hread' hretire)
  case gone =>
    intro hnone
    rcases hcases with ⟨-, -, habsent⟩ | ⟨hsome, -⟩
    · exact habsent
    · exact absurd hnone hsome
  case rest =>
    intro hsome
    rcases hcases with ⟨hnone, -⟩ | ⟨-, -, hload⟩
    · exact absurd hnone hsome
    · exact hload

/-- A batch with an entry for each locale is merged as a whole, where its stores can be loaded,
    nothing is in their way, and the disk lets the batch be taken away. -/
theorem exists_settled {canonical : Messages} (hapart : catalog.Apart before.current)
    (hmergeable : Mergeable catalog before canonical batch) (hfull : batch.Full)
    (hasked : ∃ locale, locale ∈ batch) (haccepts : before.Accepts catalog.batch)
    (hloads : ∀ locale ∈ batch, ∃ store, catalog.loadStore locale before = .ok store)
    (hopen : ∀ locale ∈ batch, before.Open (catalog.storePath locale)) :
    ∃ report after, runIn (merge catalog) before = (.ok report, after) ∧ report.failures = ∅ ∧
      Settled catalog batch report before after := by
  obtain ⟨locale, hmem⟩ := hasked
  obtain ⟨entries, hentries⟩ := mem_iff_exists_getElem?.1 hmem
  obtain ⟨report, after, hrun, hnone⟩ := exists_run_merge_of_open hapart hmergeable haccepts
    hloads hopen ⟨locale, entries, hentries, hfull locale entries hentries⟩
  exact ⟨report, after, hrun, hnone, settled_of_merge hapart hmergeable.loadBatch hfull hrun⟩

/-- A batch that may be merged may be merged in part, from wherever the canonical store is the
    same. -/
theorem Mergeable.transfer {canonical : Messages} {part : Batch} {other : Workspace}
    (h : Mergeable catalog before canonical batch)
    (hsame : Workspace.SameBytes (catalog.storePath catalog.locales.canonical) before other)
    {bytes : ByteArray}
    (hread : before.readBytes (catalog.storePath catalog.locales.canonical) = .ok bytes)
    (hbatch : catalog.loadBatch other = .ok (some part))
    (hpart : ∀ (locale : String) (entries : Messages), part[locale]? = some entries →
      batch[locale]? = some entries) : Mergeable catalog other canonical part where
  loadBatch := hbatch
  loadCanonical := by
    rw [← h.loadCanonical]
    unfold Catalog.loadStore
    rw [readFile_congr (((hsame bytes).1 hread).trans hread.symm)]
  noProblems := Batch.problems_eq_nil_iff.2 fun locale entries hentries =>
    Batch.problems_eq_nil_iff.1 h.noProblems locale entries (hpart locale entries hentries)

namespace Settled

section Canonical

variable (h : Settled catalog batch report before after)

include h

theorem mem_locales (hmem : locale ∈ batch) :
    locale ∈ catalog.locales.locales ∧ locale ≠ catalog.locales.canonical := by
  obtain ⟨canonical, hmergeable⟩ := h.mergeable
  obtain ⟨entries, hentries⟩ := mem_iff_exists_getElem?.1 hmem
  exact ⟨(hmergeable.entries hentries).1, (hmergeable.entries hentries).2.1⟩

theorem canonical_not_failed : catalog.locales.canonical ∉ report.failures :=
  fun hfailed => (h.mem_locales (h.failed _ hfailed)).2 rfl

/-- The canonical store is there, as it has the keys of the batch. -/
theorem exists_readBytes_canonical (hfull : batch.Full) : ∃ bytes,
    before.readBytes (catalog.storePath catalog.locales.canonical) = .ok bytes := by
  obtain ⟨canonical, hmergeable⟩ := h.mergeable
  obtain ⟨locale, hmem⟩ := h.asked
  obtain ⟨entries, hentries⟩ := mem_iff_exists_getElem?.1 hmem
  obtain ⟨key, hkey⟩ : ∃ key, key ∈ entries := by
    by_contra hnone
    exact hfull locale entries hentries
      (Std.ExtTreeMap.eq_empty_iff_forall_not_mem.2 fun key hkey => hnone ⟨key, hkey⟩)
  obtain ⟨text, htext⟩ := mem_iff_exists_getElem?.1 hkey
  exact Catalog.exists_readBytes_of_loadStore hmergeable.loadCanonical
    ((hmergeable.entries hentries).2.2 key text htext).1

end Canonical

end Settled

end Merge

end LocaleCatalog
