/-!
# The locales of a project

* A `LocaleSet` lists every locale once, in a configured order, and names the canonical one, which
  is always in the list;
* `LocaleSet.ofList` builds one from any list: a repeated locale keeps its first place, and a
  canonical locale that is missing is put in front.
-/

namespace LocaleCatalog

/-- Dropping repetitions leaves none. -/
theorem nodup_eraseDups {α : Type} [BEq α] [LawfulBEq α] (items : List α) :
    items.eraseDups.Nodup := by
  match items with
  | [] => simp
  | a :: rest =>
    rw [List.eraseDups_cons, List.nodup_cons]
    refine ⟨?_, nodup_eraseDups _⟩
    simp [List.mem_eraseDups]
termination_by items.length
decreasing_by
  exact Nat.lt_succ_of_le (List.length_filter_le _ _)

/-- The locales of a project, each listed once, and which of them is canonical. -/
structure LocaleSet where
  canonical : String
  locales : List String
  nodup : locales.Nodup
  canonical_mem : canonical ∈ locales

/-- The set of the locales in `items` and the canonical one. -/
def LocaleSet.ofList (canonical : String) (items : List String) : LocaleSet :=
  if h : canonical ∈ items then
    ⟨canonical, items.eraseDups, nodup_eraseDups items, by rwa [List.mem_eraseDups]⟩
  else
    ⟨canonical, canonical :: items.eraseDups,
      List.nodup_cons.2 ⟨by rwa [List.mem_eraseDups], nodup_eraseDups items⟩, List.mem_cons_self⟩

/-- The locale is one of the set. -/
instance : Membership String LocaleSet where
  mem set locale := locale ∈ set.locales

instance (set : LocaleSet) (locale : String) : Decidable (locale ∈ set) :=
  inferInstanceAs (Decidable (locale ∈ set.locales))

end LocaleCatalog
