import LocaleCatalog.Catalog.LocaleSet
import LocaleCatalog.Glob.Pattern
import LocaleCatalog.Json.Writer
import LocaleCatalog.Source.Scan
import LocaleCatalog.Text.Letter
import LocaleCatalog.Text.Quoted

/-!
# Configurations

* `Config` holds the nine settings of a project, `Config.default` their defaults and `Config.write`
  their written form;
* `Config.problem?` finds the first thing that is wrong with them: patterns are checked first, then
  the call name, then the extensions, then the locales. Locales become file names, so they are kept
  to letters, digits, dashes and underscores of ASCII; a call name may be written in any script.
-/

namespace LocaleCatalog

/-! ## 1. Settings -/

/-- The settings of a project. -/
structure Config where
  sourceRoot : String
  includes : List String
  ignores : List String
  extensions : List String
  callName : String
  localesRoot : String
  canonicalLocale : String
  locales : List String
  pendingFile : String

namespace Config

/-- The name of the configuration file. -/
def fileName : String := ".glotsyncrc.json"

/-- The settings of a project that sets nothing. -/
def default : Config where
  sourceRoot := "./"
  includes := []
  ignores := ["**/node_modules/**", "**/dist/**", "**/build/**", "**/.git/**"]
  extensions := ["js", "jsx", "ts", "tsx", "mjs", "cjs", "vue", "svelte", "html"]
  callName := "tr"
  localesRoot := "./locales"
  canonicalLocale := "en"
  locales := ["en"]
  pendingFile := "./pending-translations.json"

/-- The settings as a JSON object, without a line end behind it. -/
def write (config : Config) : String :=
  String.ofList <| Json.writeObject 0 [
    ("sourceRoot", Json.writeText config.sourceRoot),
    ("includes", Json.writeList 1 config.includes),
    ("ignores", Json.writeList 1 config.ignores),
    ("extensions", Json.writeList 1 config.extensions),
    ("callName", Json.writeText config.callName),
    ("localesRoot", Json.writeText config.localesRoot),
    ("canonicalLocale", Json.writeText config.canonicalLocale),
    ("locales", Json.writeList 1 config.locales),
    ("pendingFile", Json.writeText config.pendingFile)]

/-- Which files are sources. -/
def filter (config : Config) : Source.Filter where
  includes := config.includes
  ignores := config.ignores
  extensions := config.extensions

/-! ## 2. Names -/

/-- The characters of a locale. -/
def isLocaleChar (c : Char) : Bool :=
  c.isAlphanum || c = '-' || c = '_'

/-- A locale that may become a file name. -/
def isLocale (locale : String) : Bool :=
  locale ≠ "" && locale.toList.all isLocaleChar

/-- The characters that a call name may start with. -/
def isCallStart (c : Char) : Bool :=
  Text.isAlphabetic c || c = '_' || c = '$'

/-- The characters of a call name. -/
def isCallChar (c : Char) : Bool :=
  isCallStart c || Text.isNumeric c

/-- A name that calls can be looked for under. -/
def isCallName (name : String) : Bool :=
  match name.toList with
  | [] => false
  | c :: rest => isCallStart c && rest.all isCallChar

/-! ## 3. Problems -/

/-- What is wrong with the settings. -/
inductive Problem where
  | ignorePattern (pattern : String) (error : Glob.PatternError)
  | includePattern (pattern : String) (error : Glob.PatternError)
  | badCallName (name : String)
  | noExtensions
  | noLocales
  | badLocale (locale : String)
  | duplicateLocale (locale : String)
  | canonicalNotListed (canonical : String) (locales : List String)

/-- The wording of a problem. -/
def Problem.message : Problem → String
  | .ignorePattern pattern _ => s!"Invalid glob pattern in 'ignores': \"{pattern}\""
  | .includePattern pattern _ => s!"Invalid glob pattern in 'includes': \"{pattern}\""
  | .badCallName name => s!"Invalid 'callName': \"{name}\""
  | .noExtensions => "'extensions' must list at least one file extension"
  | .noLocales => "'locales' must list at least one locale"
  | .badLocale locale =>
    s!"Invalid locale \"{locale}\" in 'locales' (use letters, digits, '-' or '_')"
  | .duplicateLocale locale => s!"Duplicate locale \"{locale}\" in 'locales'"
  | .canonicalNotListed canonical locales =>
    s!"Canonical locale \"{canonical}\" is not listed in 'locales' {Text.quotedList locales}"

/-- What lies behind a problem. -/
def Problem.causes : Problem → List String
  | .ignorePattern _ error | .includePattern _ error => [error.message]
  | _ => []

/-- The first pattern that cannot be read. -/
def badPattern? (texts : List String) : Option (String × Glob.PatternError) :=
  (texts.filter Source.isPattern).findSome? fun text =>
    match Glob.Pattern.parse text with
    | .ok _ => none
    | .error error => some (text, error)

/-- The first locale that is no locale, or was listed before. -/
def badLocale? (seen : List String) : List String → Option Problem
  | [] => none
  | locale :: more =>
    if !isLocale locale then some (.badLocale locale)
    else if locale ∈ seen then some (.duplicateLocale locale)
    else badLocale? (locale :: seen) more

/-- The first thing that is wrong with the settings. -/
def problem? (config : Config) : Option Problem :=
  match badPattern? config.ignores, badPattern? config.includes with
  | some (text, error), _ => some (.ignorePattern text error)
  | none, some (text, error) => some (.includePattern text error)
  | none, none =>
    if !isCallName config.callName then some (.badCallName config.callName)
    else if config.extensions = [] then some .noExtensions
    else if config.locales = [] then some .noLocales
    else
      match badLocale? [] config.locales with
      | some problem => some problem
      | none =>
        if config.canonicalLocale ∈ config.locales then none
        else some (.canonicalNotListed config.canonicalLocale config.locales)

end Config

end LocaleCatalog
