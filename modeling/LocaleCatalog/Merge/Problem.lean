import LocaleCatalog.Catalog.LocaleSet
import LocaleCatalog.Catalog.Messages

/-!
# What keeps a batch from being merged

A batch can be merged when every entry belongs to a configured locale other than the canonical one,
has a key of the canonical store, and has a text. `Batch.problems` lists all that is in the way, in
the order of locales and keys; a locale that may not be merged is one problem, whatever it holds.
-/

namespace LocaleCatalog

/-- One reason why a batch cannot be merged. -/
inductive BatchProblem where
  | blank (locale key : String)
  | unknownKey (locale key : String)
  | unknownLocale (locale : String)
  | canonicalLocale (locale : String)
  deriving DecidableEq

/-- The wording of a problem. -/
def BatchProblem.message : BatchProblem → String
  | .blank locale key => s!"{locale}: {key}"
  | .unknownKey locale key => s!"{locale}: {key} (not a known key)"
  | .unknownLocale locale => s!"{locale}: locale is not configured"
  | .canonicalLocale locale => s!"{locale}: canonical locale cannot be translated"

/-- What is wrong with one entry. -/
def entryProblem? (canonical : Messages) (locale key text : String) : Option BatchProblem :=
  if ¬ canonical.contains key then some (.unknownKey locale key)
  else if Text.Blank text then some (.blank locale key)
  else none

/-- What is wrong with one locale of a batch. -/
def localeProblems (locales : LocaleSet) (canonical : Messages) (locale : String)
    (entries : Messages) : List BatchProblem :=
  if locale ∉ locales then [.unknownLocale locale]
  else if locale = locales.canonical then [.canonicalLocale locale]
  else entries.toList.filterMap fun entry => entryProblem? canonical locale entry.1 entry.2

/-- All that is wrong with a batch. -/
def Batch.problems (batch : Batch) (locales : LocaleSet) (canonical : Messages) :
    List BatchProblem :=
  batch.toList.flatMap fun (locale, entries) => localeProblems locales canonical locale entries

end LocaleCatalog
