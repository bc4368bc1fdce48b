import LocaleCatalog.Sync.Plan

/-!
# Synchronization

`synchronize` makes every store hold exactly the keys of the sources. It plans, then writes the
stores in the order of the locales (`Plan.writeStores`), then writes the batch, or takes it away
when nothing is to be translated (`Plan.writeBatch`). A file that cannot be read ends it before
anything is written.
-/

namespace LocaleCatalog.Sync

/-! ## 1. Reports -/

/-- What became of a locale. -/
structure LocaleSummary where
  locale : String
  keys : Nat
  pending : Nat

/-- What became of the batch. -/
inductive BatchOutcome where
  /-- A batch was written, with some texts from the one before it. -/
  | written (entries carried : Nat)
  /-- Nothing is to be translated; an old batch may have been taken away. -/
  | upToDate (removedStale : Bool)

/-- What a synchronization did. -/
structure Report where
  keyCount : Nat
  diff : KeyDiff
  locales : List LocaleSummary
  batch : BatchOutcome

/-! ## 2. Writing -/

/-- Writes the stores, in the order of the locales. -/
def Plan.writeStores (plan : Plan) (catalog : Catalog) : FileAction StoreError Unit :=
  plan.locales.forM fun locale => catalog.saveStore locale.locale locale.store

/-- Writes the batch, or takes the old one away. -/
def Plan.writeBatch (plan : Plan) (catalog : Catalog) : FileAction StoreError BatchOutcome :=
  if plan.batch.isEmpty then do
    return .upToDate (← catalog.removeBatch)
  else do
    catalog.saveBatch plan.batch
    return .written plan.batch.entryCount plan.carried

/-- The counts of a locale. -/
def LocalePlan.summary (plan : LocalePlan) : LocaleSummary where
  locale := plan.locale
  keys := plan.store.size
  pending := plan.pending.length

/-- Writes all files of the plan. -/
def Plan.commit (plan : Plan) (catalog : Catalog) : FileAction StoreError Report := do
  plan.writeStores catalog
  let batch ← plan.writeBatch catalog
  return {
    keyCount := plan.keyCount
    diff := plan.diff
    locales := plan.locales.map (·.summary)
    batch }

/-- Makes every store hold exactly the keys. -/
def synchronize (catalog : Catalog) (keys : KeySet) : FileAction StoreError Report := do
  (← FileAction.inspect (Plan.make catalog keys)).commit catalog

end LocaleCatalog.Sync
