import LocaleCatalog.Catalog.Files
import LocaleCatalog.Sync.Keys

/-!
# What a synchronization will write

A synchronization reads everything before it writes anything. `Plan.make` does the reading: it loads
the batch and every store, and decides what each file will hold.

* A store is rebuilt, not patched (`rebuild`): it holds exactly the keys of the sources. The
  canonical one maps each key to itself; any other keeps its texts and has an empty one for a key
  that is new;
* the keys with a blank text go into the new batch, each with the text that the old batch held for
  it, unless that is blank too (`carriedEntries`).
-/

namespace LocaleCatalog.Sync

/-! ## 1. Stores -/

/-- The messages of a store that holds exactly the keys. -/
def rebuild (keys : KeySet) (prior : Messages) (canonical : Bool) : Messages :=
  Messages.ofEntries (keys.toList.map fun key =>
    (key, if canonical then key else prior.textOf key))

/-- The keys of a rebuilt store that are to be translated: none in the canonical one. -/
def pendingKeys (rebuilt : Messages) (canonical : Bool) : List String :=
  if canonical then [] else rebuilt.blankKeys

/-! ## 2. Batch -/

/-- The text that the old batch offers for a key: its text there, or nothing if that is blank. -/
def carriedText (previous : Messages) (key : String) : String :=
  let text := previous.textOf key
  if Text.Blank text then "" else text

/-- The entries of a locale in the new batch. -/
def carriedEntries (previous : Messages) (pending : List String) : Messages :=
  Messages.ofEntries (pending.map fun key => (key, carriedText previous key))

/-- How many entries have a text. -/
def filledCount (entries : Messages) : Nat :=
  entries.toList.countP fun entry => entry.2 ≠ ""

/-! ## 3. The plan -/

/-- What will become of one locale. -/
structure LocalePlan where
  locale : String
  store : Messages
  pending : List String
  /-- Its entries in the new batch. -/
  entries : Messages

/-- What a synchronization will write, and what it found. -/
structure Plan where
  keyCount : Nat
  diff : KeyDiff
  locales : List LocalePlan

/-- Plans one locale. -/
def LocalePlan.make (locales : LocaleSet) (keys : KeySet) (previous : Batch) (locale : String)
    (prior : Messages) : LocalePlan :=
  let canonical := locale = locales.canonical
  let store := rebuild keys prior canonical
  let pending := pendingKeys store canonical
  { locale, store, pending, entries := carriedEntries (previous[locale]?.getD ∅) pending }

/-- Loads the store of every locale, in their order. -/
def loadStores (catalog : Catalog) (workspace : Workspace) :
    Except StoreError (List (String × Messages)) :=
  catalog.locales.locales.mapM fun locale => do
    return (locale, ← catalog.loadStore locale workspace)

/-- Plans a synchronization with the keys. -/
def Plan.make (catalog : Catalog) (keys : KeySet) (workspace : Workspace) :
    Except StoreError Plan := do
  let previous := (← catalog.loadBatch workspace).getD ∅
  let priors ← loadStores catalog workspace
  let canonical := (priors.lookup catalog.locales.canonical).getD ∅
  return {
    keyCount := keys.size
    diff := KeyDiff.between keys canonical
    locales := priors.map fun prior =>
      LocalePlan.make catalog.locales keys previous prior.1 prior.2 }

/-- The new batch: the locales with something to translate. -/
def Plan.batch (plan : Plan) : Batch :=
  Batch.ofEntries <|
    (plan.locales.filter fun locale => locale.pending ≠ []).map fun locale =>
      (locale.locale, locale.entries)

/-- How many texts the new batch has from the old one. -/
def Plan.carried (plan : Plan) : Nat :=
  plan.locales.foldl (fun count locale => count + filledCount locale.entries) 0

end LocaleCatalog.Sync
