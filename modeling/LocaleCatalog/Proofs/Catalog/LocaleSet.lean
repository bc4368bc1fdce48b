import LocaleCatalog.Catalog.LocaleSet
import LocaleCatalog.Proofs.Distinct

/-!
# Sets of locales

A set is built from any list: with repetitions, with or without the canonical locale, empty.

* `LocaleSet.canonical_ofList`, `LocaleSet.locales_ofList_eq`: what is built;
* `LocaleSet.locales_ofList`: a list that is a set already stays as it is;
* `LocaleSet.enumerates_ofList`: the set lists the members of the list, each once and in their
  order, the canonical locale in front of them if it is not one of them; built again from its own
  list it is the same.
-/

namespace LocaleCatalog.LocaleSet

/-! ## 1. What is built -/

theorem canonical_ofList (canonical : String) (items : List String) :
    (ofList canonical items).canonical = canonical := by
  unfold ofList
  split <;> rfl

theorem locales_ofList_eq (canonical : String) (items : List String) :
    (ofList canonical items).locales =
      if canonical ∈ items then items.eraseDups else canonical :: items.eraseDups := by
  unfold ofList
  split <;> rfl

/-- A list that is a set already stays as it is. -/
theorem locales_ofList {canonical : String} {items : List String} (hnodup : items.Nodup)
    (hmem : canonical ∈ items) : (ofList canonical items).locales = items := by
  rw [locales_ofList_eq, if_pos hmem]
  exact eraseDups_of_nodup hnodup

/-- Sets with the same list and the same canonical locale are the same. -/
theorem eq_of_locales {set other : LocaleSet} (hcanonical : set.canonical = other.canonical)
    (hlocales : set.locales = other.locales) : set = other := by
  cases set
  cases other
  cases hcanonical
  cases hlocales
  rfl

theorem mem_ofList {canonical locale : String} {items : List String} :
    locale ∈ ofList canonical items ↔ locale ∈ items ∨ locale = canonical := by
  show locale ∈ (ofList canonical items).locales ↔ _
  rw [locales_ofList_eq]
  split
  · rename_i hmem
    rw [List.mem_eraseDups]
    exact ⟨Or.inl, fun h => h.elim id fun heq => heq ▸ hmem⟩
  · rw [List.mem_cons, List.mem_eraseDups, or_comm]

/-! ## 2. Its order -/

/-- The members of a list, each once, in the order of their first places there. -/
structure FirstPlaces (items kept : List String) : Prop where
  mem_iff : ∀ locale, locale ∈ kept ↔ locale ∈ items
  ordered : kept.Pairwise fun first second => items.idxOf first < items.idxOf second

theorem firstPlaces_eraseDups (items : List String) : FirstPlaces items items.eraseDups where
  mem_iff _ := List.mem_eraseDups
  ordered := pairwise_idxOf_eraseDups items

/-- The set lists a canonical locale and the members of a list. The canonical locale is put in
    front of them just if it is not one of them; else they are all there is, and it stands among
    them where the list has it first. -/
structure Enumerates (set : LocaleSet) (canonical : String) (items : List String) : Prop where
  canonical_eq : set.canonical = canonical
  canonical_mem : canonical ∈ set
  nodup : set.locales.Nodup
  mem_iff : ∀ locale, locale ∈ set ↔ locale ∈ items ∨ locale = canonical
  ordered : ∃ kept, FirstPlaces items kept ∧
    (set.locales = canonical :: kept ↔ canonical ∉ items) ∧
    (set.locales = kept ↔ canonical ∈ items)
  /-- The set is the one that its own list gives. -/
  rebuilt : ofList canonical set.locales = set

/-- A set built from any list lists its members and the canonical locale, and can be built again
    from what it lists. -/
theorem enumerates_ofList (canonical : String) (items : List String) :
    (ofList canonical items).Enumerates canonical items := by
  have hmem : canonical ∈ ofList canonical items := mem_ofList.2 (Or.inr rfl)
  have hlocales := locales_ofList_eq canonical items
  have hlonger : items.eraseDups ≠ canonical :: items.eraseDups :=
    fun heq => absurd (congrArg List.length heq) (by simp)
  refine ⟨canonical_ofList _ _, hmem, (ofList canonical items).nodup, fun _ => mem_ofList,
    ⟨items.eraseDups, firstPlaces_eraseDups items, ?_⟩, ?_⟩
  · rw [hlocales]
    split
    · rename_i hlisted
      exact ⟨iff_of_false hlonger (not_not_intro hlisted), iff_of_true rfl hlisted⟩
    · rename_i hmissing
      exact ⟨iff_of_true rfl hmissing, iff_of_false hlonger.symm hmissing⟩
  · refine eq_of_locales ((canonical_ofList _ _).trans (canonical_ofList _ _).symm) ?_
    exact locales_ofList (ofList canonical items).nodup hmem

/-- The canonical locale keeps its place in the list, and is put in front only if it is missing. -/
example : (ofList "en" ["fr", "en", "fr", "de"]).locales = ["fr", "en", "de"] ∧
    (ofList "en" ["fr", "de", "fr"]).locales = ["en", "fr", "de"] := by
  decide +kernel

end LocaleCatalog.LocaleSet
