import LocaleCatalog.Proofs.Merge.Plan

/-!
# The problems of a batch

`Batch.HasProblem` says what is wrong with a batch, one problem at a time: a locale that is not
configured, the canonical locale, and in any other locale the entries with an unknown key or a blank
text. `Batch.listing_problems` says that the problems of a batch are listed

* completely, and with nothing else: a problem hides no other one, except that a locale that cannot
  be merged is one problem, whatever it holds;
* by locale and then by key (`BatchProblem.Precedes`), so each of them once. There is only one such
  list.
-/

namespace LocaleCatalog

/-! ## 1. Problems and their order -/

namespace BatchProblem

/-- The locale that is, or has, the problem. -/
def locale : BatchProblem → String
  | .blank locale _ | .unknownKey locale _ | .unknownLocale locale | .canonicalLocale locale => locale

/-- The key of the entry that is the problem, unless the locale itself is. -/
def key? : BatchProblem → Option String
  | .blank _ key | .unknownKey _ key => some key
  | .unknownLocale _ | .canonicalLocale _ => none

/-- Problems are ordered by locale, and in one locale by key. Texts are ordered by code points. -/
def Precedes (first second : BatchProblem) : Prop :=
  first.locale < second.locale ∨
    first.locale = second.locale ∧ ∃ key other,
      first.key? = some key ∧ second.key? = some other ∧ key < other

variable {first second third : BatchProblem}

theorem Precedes.irrefl (problem : BatchProblem) : ¬ problem.Precedes problem := by
  intro h
  rcases h with hlocale | ⟨-, key, other, hkey, hother, hless⟩
  · exact String.lt_irrefl _ hlocale
  · rw [hkey] at hother
    cases hother
    exact String.lt_irrefl _ hless

theorem Precedes.trans (h : first.Precedes second) (h' : second.Precedes third) :
    first.Precedes third := by
  rcases h with hlocale | ⟨hlocale, key, other, hkey, hother, hless⟩
  · rcases h' with hlocale' | ⟨hlocale', -⟩
    · exact .inl (String.lt_trans hlocale hlocale')
    · exact .inl (hlocale' ▸ hlocale)
  · rcases h' with hlocale' | ⟨hlocale', key', last, hkey', hlast, hless'⟩
    · exact .inl (hlocale ▸ hlocale')
    · rw [hother] at hkey'
      cases hkey'
      exact .inr ⟨hlocale.trans hlocale', key, last, hkey, hlast, String.lt_trans hless hless'⟩

end BatchProblem

/-- What is wrong with a batch. -/
inductive Batch.HasProblem (batch : Batch) (locales : LocaleSet) (canonical : Messages) :
    BatchProblem → Prop where
  /-- The batch names a locale that is not configured. -/
  | unknownLocale {locale : String} (hnamed : locale ∈ batch) (hunknown : locale ∉ locales) :
      HasProblem batch locales canonical (.unknownLocale locale)
  /-- The batch names the canonical locale, with or without entries. -/
  | canonicalLocale (hnamed : locales.canonical ∈ batch) :
      HasProblem batch locales canonical (.canonicalLocale locales.canonical)
  /-- A locale that may be merged has an entry whose key the canonical store does not have. -/
  | unknownKey {locale key text : String} {entries : Messages} (hknown : locale ∈ locales)
      (hother : locale ≠ locales.canonical) (hentries : batch[locale]? = some entries)
      (hentry : entries[key]? = some text) (hunknown : key ∉ canonical) :
      HasProblem batch locales canonical (.unknownKey locale key)
  /-- It has an entry with a known key and a blank text. -/
  | blank {locale key text : String} {entries : Messages} (hknown : locale ∈ locales)
      (hother : locale ≠ locales.canonical) (hentries : batch[locale]? = some entries)
      (hentry : entries[key]? = some text) (hkey : key ∈ canonical) (hblank : Text.Blank text) :
      HasProblem batch locales canonical (.blank locale key)

/-! ## 2. One locale -/

variable {batch : Batch} {locales : LocaleSet} {canonical entries : Messages}
  {locale key text : String} {problem : BatchProblem}

theorem entryProblem?_eq_some_iff : entryProblem? canonical locale key text = some problem ↔
    (key ∉ canonical ∧ problem = .unknownKey locale key) ∨
      (key ∈ canonical ∧ Text.Blank text ∧ problem = .blank locale key) := by
  unfold entryProblem?
  simp only [Std.ExtTreeMap.contains_iff_mem]
  by_cases hkey : key ∈ canonical
  · by_cases hblank : Text.Blank text
    · simp [hkey, hblank, eq_comm]
    · simp [hkey, hblank]
  · simp [hkey, eq_comm]

/-- An entry that is a problem is named by its locale and its key. -/
theorem name_of_entryProblem? (h : entryProblem? canonical locale key text = some problem) :
    problem.locale = locale ∧ problem.key? = some key := by
  rcases entryProblem?_eq_some_iff.1 h with ⟨-, rfl⟩ | ⟨-, -, rfl⟩
  · exact ⟨rfl, rfl⟩
  · exact ⟨rfl, rfl⟩

theorem mem_localeProblems_iff : problem ∈ localeProblems locales canonical locale entries ↔
    (locale ∉ locales ∧ problem = .unknownLocale locale) ∨
      (locale = locales.canonical ∧ problem = .canonicalLocale locale) ∨
        (locale ∈ locales ∧ locale ≠ locales.canonical ∧ ∃ key text, entries[key]? = some text ∧
          entryProblem? canonical locale key text = some problem) := by
  have hlisted : locales.canonical ∈ locales := locales.canonical_mem
  unfold localeProblems
  by_cases hknown : locale ∈ locales
  · by_cases hcanonical : locale = locales.canonical
    · simp [hcanonical, hlisted]
    · simp [hknown, hcanonical, Std.ExtTreeMap.mem_toList_iff_getElem?_eq_some]
  · have hother : locale ≠ locales.canonical := by
      intro heq
      exact hknown (heq ▸ hlisted)
    simp [hknown, hother]

theorem locale_of_mem_localeProblems
    (h : problem ∈ localeProblems locales canonical locale entries) : problem.locale = locale := by
  rcases mem_localeProblems_iff.1 h with ⟨-, rfl⟩ | ⟨-, rfl⟩ | ⟨-, -, key, text, -, hproblem⟩
  · rfl
  · rfl
  · exact (name_of_entryProblem? hproblem).1

/-- The entries of a locale are looked at in the order of their keys. -/
theorem pairwise_localeProblems :
    (localeProblems locales canonical locale entries).Pairwise BatchProblem.Precedes := by
  unfold localeProblems
  split
  · exact List.pairwise_singleton _ _
  · split
    · exact List.pairwise_singleton _ _
    · rw [List.pairwise_filterMap]
      have hordered := List.pairwise_map.1 (ordered_toList entries)
      refine hordered.imp fun hless first hfirst second hsecond => .inr ?_
      obtain ⟨hlocale, hkey⟩ := name_of_entryProblem? hfirst
      obtain ⟨hlocale', hkey'⟩ := name_of_entryProblem? hsecond
      exact ⟨hlocale.trans hlocale'.symm, _, _, hkey, hkey', hless⟩

/-! ## 3. The whole batch -/

namespace Batch

/-- All problems are listed, and nothing else. -/
theorem mem_problems_iff :
    problem ∈ batch.problems locales canonical ↔ batch.HasProblem locales canonical problem := by
  unfold problems
  simp only [List.mem_flatMap, Prod.exists, Std.ExtTreeMap.mem_toList_iff_getElem?_eq_some,
    mem_localeProblems_iff, entryProblem?_eq_some_iff]
  constructor
  · intro h
    obtain ⟨locale, entries, hentries, h⟩ := h
    have hnamed : locale ∈ batch := mem_iff_exists_getElem?.2 ⟨entries, hentries⟩
    rcases h with ⟨hunknown, rfl⟩ | ⟨rfl, rfl⟩ | ⟨hknown, hother, key, text, hentry, h⟩
    · exact .unknownLocale hnamed hunknown
    · exact .canonicalLocale hnamed
    · rcases h with ⟨hunknown, rfl⟩ | ⟨hkey, hblank, rfl⟩
      · exact .unknownKey hknown hother hentries hentry hunknown
      · exact .blank hknown hother hentries hentry hkey hblank
  · intro h
    cases h with
    | unknownLocale hnamed hunknown =>
      obtain ⟨entries, hentries⟩ := mem_iff_exists_getElem?.1 hnamed
      exact ⟨_, entries, hentries, .inl ⟨hunknown, rfl⟩⟩
    | canonicalLocale hnamed =>
      obtain ⟨entries, hentries⟩ := mem_iff_exists_getElem?.1 hnamed
      exact ⟨_, entries, hentries, .inr (.inl ⟨rfl, rfl⟩)⟩
    | unknownKey hknown hother hentries hentry hunknown =>
      exact ⟨_, _, hentries,
        .inr (.inr ⟨hknown, hother, _, _, hentry, .inl ⟨hunknown, rfl⟩⟩)⟩
    | blank hknown hother hentries hentry hkey hblank =>
      exact ⟨_, _, hentries,
        .inr (.inr ⟨hknown, hother, _, _, hentry, .inr ⟨hkey, hblank, rfl⟩⟩)⟩

/-- The locales are looked at in their order, each with its own problems. -/
theorem pairwise_problems :
    (batch.problems locales canonical).Pairwise BatchProblem.Precedes := by
  unfold problems
  rw [List.pairwise_flatMap]
  constructor
  · intro entry _
    exact pairwise_localeProblems
  · have hordered := List.pairwise_map.1 (ordered_toList batch)
    refine hordered.imp fun hless first hfirst second hsecond => .inl ?_
    rw [locale_of_mem_localeProblems hfirst, locale_of_mem_localeProblems hsecond]
    exact hless

theorem nodup_of_pairwise {problems : List BatchProblem}
    (h : problems.Pairwise BatchProblem.Precedes) : problems.Nodup := by
  refine h.imp fun {first second} hless heq => ?_
  subst heq
  exact BatchProblem.Precedes.irrefl first hless

/-- A list in this order is given by its members. -/
theorem eq_of_pairwise {first second : List BatchProblem}
    (hfirst : first.Pairwise BatchProblem.Precedes)
    (hsecond : second.Pairwise BatchProblem.Precedes) (h : ∀ problem, problem ∈ first ↔ problem ∈ second) :
    first = second := by
  refine List.Perm.eq_of_pairwise (fun one other _ _ hless hless' => ?_) hfirst hsecond
    ((List.perm_ext_iff_of_nodup (nodup_of_pairwise hfirst) (nodup_of_pairwise hsecond)).2 h)
  exact absurd (hless.trans hless') (BatchProblem.Precedes.irrefl one)

/-- The list says what is wrong with the batch. -/
structure Listing (batch : Batch) (locales : LocaleSet) (canonical : Messages)
    (problems : List BatchProblem) : Prop where
  /-- It holds every problem, and nothing else. -/
  mem_iff : ∀ problem, problem ∈ problems ↔ batch.HasProblem locales canonical problem
  /-- Its problems increase strictly by locale and key. -/
  ordered : problems.Pairwise BatchProblem.Precedes
  /-- None is repeated. -/
  nodup : problems.Nodup
  /-- No other list is like that. -/
  unique : ∀ others : List BatchProblem,
    (∀ problem, problem ∈ others ↔ batch.HasProblem locales canonical problem) →
      others.Pairwise BatchProblem.Precedes → others = problems
  /-- A locale that is not configured is one problem, whatever it holds. -/
  unknownAlone : ∀ problem ∈ problems, problem.locale ∉ locales →
    problem = .unknownLocale problem.locale
  /-- So is the canonical locale. -/
  canonicalAlone : ∀ problem ∈ problems, problem.locale = locales.canonical →
    problem = .canonicalLocale locales.canonical
  /-- It is empty just if every locale may be merged, and every entry has a known key and a text. -/
  eq_nil_iff : problems = [] ↔ ∀ locale entries, batch[locale]? = some entries →
    locale ∈ locales ∧ locale ≠ locales.canonical ∧
      ∀ key text, entries[key]? = some text → key ∈ canonical ∧ ¬ Text.Blank text

/-- The problems of a batch are all that is wrong with it, in their order. -/
theorem listing_problems (batch : Batch) (locales : LocaleSet) (canonical : Messages) :
    batch.Listing locales canonical (batch.problems locales canonical) := by
  constructor
  case mem_iff =>
    intro problem
    exact mem_problems_iff
  case ordered => exact pairwise_problems
  case nodup => exact nodup_of_pairwise pairwise_problems
  case unique =>
    intro others hmem hordered
    exact eq_of_pairwise hordered pairwise_problems fun problem =>
      (hmem problem).trans mem_problems_iff.symm
  case unknownAlone =>
    intro problem hmem hunknown
    cases mem_problems_iff.1 hmem with
    | unknownLocale => rfl
    | canonicalLocale => exact absurd locales.canonical_mem hunknown
    | unknownKey hknown => exact absurd hknown hunknown
    | blank hknown => exact absurd hknown hunknown
  case canonicalAlone =>
    intro problem hmem hcanonical
    cases mem_problems_iff.1 hmem with
    | @unknownLocale locale _ hunknown =>
      have hlocale : locale = locales.canonical := hcanonical
      exact absurd (hlocale ▸ locales.canonical_mem) hunknown
    | canonicalLocale => rfl
    | unknownKey _ hother => exact absurd hcanonical hother
    | blank _ hother => exact absurd hcanonical hother
  case eq_nil_iff =>
    rw [problems_eq_nil_iff]
    simp only [Std.ExtTreeMap.contains_iff_mem]

/-- Locales that may not be merged, and one that may, with a key that is unknown and blank as well. -/
example : (Batch.ofEntries [("en", ∅), ("de", Messages.ofEntries [("a", "")]),
      ("fr", Messages.ofEntries [("b", ""), ("a", " "), ("c", "C")])]).problems
      (.ofList "en" ["fr", "en"]) (Messages.ofEntries [("a", "a"), ("c", "c")]) =
    [.unknownLocale "de", .canonicalLocale "en", .blank "fr" "a", .unknownKey "fr" "b"] := by
  decide +kernel

end Batch

end LocaleCatalog
