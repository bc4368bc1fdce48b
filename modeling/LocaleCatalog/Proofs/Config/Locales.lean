import LocaleCatalog.Project
import LocaleCatalog.Proofs.FileTree.Graft
import LocaleCatalog.Proofs.Catalog.LocaleSet

/-!
# The locales of accepted settings

The locales of the settings become names of files, below a directory that the settings name
independently. Settings are checked before any path is built from them.

* `Config.problem?_eq_none_iff`, `Config.badLocale?_eq_none_iff`: what is checked;
* `Config.isName_of_isLocale`: a checked locale gives an ordinary file name;
* `Project.ofConfig_eq_ok`: the project of settings that are accepted;
* `Project.confined_of_ofConfig`: its locales are the listed ones, none dropped and none added, and
  each has a store of its own, right below the directory of the stores.
-/

namespace LocaleCatalog

/-! ## 1. What is checked -/

namespace Config

variable {config : Config} {locale : String}

/-- Locales pass if each is well formed, and was not listed before. -/
theorem badLocale?_eq_none_iff {seen locales : List String} : badLocale? seen locales = none ↔
    locales.Nodup ∧ ∀ locale ∈ locales, isLocale locale = true ∧ locale ∉ seen := by
  induction locales generalizing seen with
  | nil => simp [badLocale?]
  | cons locale locales ih =>
    unfold badLocale?
    cases hlocale : isLocale locale with
    | false => simp [hlocale]
    | true =>
      by_cases hseen : locale ∈ seen
      · simp [hseen]
      · rw [if_neg (by simp), if_neg hseen, ih, List.nodup_cons, List.forall_mem_cons]
        -- That no later locale is this one stands on both sides, in two ways.
        simp only [List.mem_cons, not_or]
        grind

/-- Settings are accepted if every check passes. -/
theorem problem?_eq_none_iff : config.problem? = none ↔
    (badPattern? config.ignores = none ∧ badPattern? config.includes = none) ∧
      isCallName config.callName = true ∧ config.extensions ≠ [] ∧ config.locales ≠ [] ∧
      badLocale? [] config.locales = none ∧ config.canonicalLocale ∈ config.locales := by
  unfold problem?
  split
  · simp [*]
  · simp [*]
  · rename_i hignores hincludes
    rw [hignores, hincludes]
    cases hlocales : badLocale? [] config.locales with
    | some problem => grind
    | none => grind

/-- Valid settings list each locale once, and the canonical one among them. -/
theorem locales_of_problem? (h : config.problem? = none) :
    config.locales.Nodup ∧ config.canonicalLocale ∈ config.locales := by
  obtain ⟨-, -, -, -, hlocales, hcanonical⟩ := problem?_eq_none_iff.1 h
  exact ⟨(badLocale?_eq_none_iff.1 hlocales).1, hcanonical⟩

theorem isLocale_of_problem? (h : config.problem? = none) :
    ∀ locale ∈ config.locales, isLocale locale = true := by
  obtain ⟨-, -, -, -, hlocales, -⟩ := problem?_eq_none_iff.1 h
  exact fun locale hlocale => ((badLocale?_eq_none_iff.1 hlocales).2 locale hlocale).1

/-- The file of a locale has an ordinary name. -/
theorem isName_of_isLocale (h : isLocale locale = true) : Path.IsName (locale ++ ".json") := by
  unfold isLocale at h
  rw [Bool.and_eq_true, List.all_eq_true] at h
  have hlong (other : String) (hother : other.length < 5) : locale ++ ".json" ≠ other := by
    intro heq
    have hlength : locale.length + ".json".length = other.length := by
      rw [← String.length_append, heq]
    have hjson : ".json".length = 5 := by decide
    omega
  refine ⟨fun hmem => ?_, ?_, hlong ".." (by decide)⟩
  · rw [String.toList_append, List.mem_append] at hmem
    rcases hmem with hmem | hmem
    · exact absurd (h.2 '/' hmem) (by decide)
    · exact absurd hmem (by decide)
  · simp [Path.isSilent, hlong "" (by decide), hlong "." (by decide)]

end Config

/-! ## 2. Stores by locale -/

/-- The store of a locale is one step below the directory of the stores. -/
theorem Catalog.components_storePath (catalog : Catalog) {locale : String}
    (h : Config.isLocale locale = true) : (catalog.storePath locale).components =
      catalog.stores.components ++ [.name (locale ++ ".json")] :=
  Path.components_div catalog.stores (Config.isName_of_isLocale h)

/-- Two locales do not share the path of a store, however it is spelled. -/
theorem Catalog.eq_of_components_storePath (catalog : Catalog) {locale other : String}
    (h : Config.isLocale locale = true) (hother : Config.isLocale other = true)
    (heq : (catalog.storePath locale).components = (catalog.storePath other).components) :
    locale = other := by
  rw [components_storePath catalog h, components_storePath catalog hother] at heq
  have hname : locale ++ ".json" = other ++ ".json" := by
    simpa using List.append_cancel_left heq
  exact (String.append_left_inj _).1 hname

namespace Project

/-- The project of settings, with its paths resolved. -/
def resolved (config : Config) (base : Path) : Project where
  config
  sourceRoot := base.resolve ⟨config.sourceRoot⟩
  catalog := {
    locales := LocaleSet.ofList config.canonicalLocale config.locales
    stores := base.resolve ⟨config.localesRoot⟩
    batch := base.resolve ⟨config.pendingFile⟩ }

variable {config : Config} {base : Path} {project : Project}

/-- Settings are accepted if there is no problem with them. -/
theorem ofConfig_eq_ok : ofConfig config base = .ok project ↔
    config.problem? = none ∧ project = resolved config base := by
  unfold ofConfig
  cases config.problem? with
  | none => simp [resolved, eq_comm]
  | some problem => simp

/-- The locales of accepted settings are those of the catalog. -/
theorem locales_of_ofConfig (h : ofConfig config base = .ok project) :
    config.problem? = none ∧ project.catalog.locales.locales = config.locales := by
  obtain ⟨hnone, rfl⟩ := ofConfig_eq_ok.1 h
  obtain ⟨hnodup, hcanonical⟩ := Config.locales_of_problem? hnone
  exact ⟨hnone, LocaleSet.locales_ofList hnodup hcanonical⟩

/-- The project has the listed locales and no others, and their stores lie beside each other, right
    below the directory that the settings name. -/
structure Confined (project : Project) (config : Config) (base : Path) : Prop where
  locales : project.catalog.locales.locales = config.locales
  canonical : project.catalog.locales.canonical = config.canonicalLocale
  canonical_mem : config.canonicalLocale ∈ config.locales
  stores : project.catalog.stores = base.resolve ⟨config.localesRoot⟩
  isName : ∀ locale ∈ config.locales, Path.IsName (locale ++ ".json")
  below : ∀ locale ∈ config.locales, (project.catalog.storePath locale).components =
    project.catalog.stores.components ++ [.name (locale ++ ".json")]
  apart : ∀ locale ∈ config.locales, ∀ other ∈ config.locales, locale ≠ other →
    (project.catalog.storePath locale).components ≠ (project.catalog.storePath other).components

theorem canonical_resolved : (resolved config base).catalog.locales.canonical =
    config.canonicalLocale :=
  LocaleSet.canonical_ofList _ _

/-- No locale of settings that are accepted leads out of the directory of the stores, and no two of
    them lead to one file. -/
theorem confined_of_ofConfig (h : ofConfig config base = .ok project) :
    project.Confined config base := by
  obtain ⟨hnone, hlocales⟩ := locales_of_ofConfig h
  obtain ⟨-, rfl⟩ := ofConfig_eq_ok.1 h
  have hvalid := Config.isLocale_of_problem? hnone
  exact {
    locales := hlocales
    canonical := canonical_resolved
    canonical_mem := (Config.locales_of_problem? hnone).2
    stores := rfl
    isName := fun locale hlocale => Config.isName_of_isLocale (hvalid locale hlocale)
    below := fun locale hlocale => Catalog.components_storePath _ (hvalid locale hlocale)
    apart := fun locale hlocale other hother hne heq => hne <|
      Catalog.eq_of_components_storePath _ (hvalid locale hlocale) (hvalid other hother) heq }

/-- The canonical locale may stand anywhere in the list. -/
def listingConfig : Config :=
  { Config.default with locales := ["pt-BR", "en", "__"], localesRoot := "../texts/" }

theorem confined_sample : ∃ project, ofConfig listingConfig ⟨"/p"⟩ = .ok project ∧
    project.Confined listingConfig ⟨"/p"⟩ ∧
    project.catalog.locales.locales = ["pt-BR", "en", "__"] ∧
    (project.catalog.storePath "pt-BR").components =
      [.root, .name "p", .up, .name "texts", .name "pt-BR.json"] := by
  have hproject : ofConfig listingConfig ⟨"/p"⟩ = .ok (resolved listingConfig ⟨"/p"⟩) :=
    ofConfig_eq_ok.2 ⟨Option.isNone_iff_eq_none.1 (by decide +kernel), rfl⟩
  have hconfined := confined_of_ofConfig hproject
  refine ⟨_, hproject, hconfined, hconfined.locales, ?_⟩
  exact (hconfined.below "pt-BR" (by decide)).trans (by decide +kernel)

end Project

end LocaleCatalog
