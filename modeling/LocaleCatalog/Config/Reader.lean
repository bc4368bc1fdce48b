import LocaleCatalog.Config.Basic
import LocaleCatalog.Json.Skip

/-!
# Reading a configuration

A configuration is an object whose members set single settings; what it does not set keeps its
default, and members of other names are read past. A setting may be set once, under either of its
names. A list is read as well: its items are the settings in their order, from the first one on.
-/

namespace LocaleCatalog.Config

/-! ## 1. Settings by name -/

/-- The settings, in their order. -/
inductive Field where
  | sourceRoot
  | includes
  | ignores
  | extensions
  | callName
  | localesRoot
  | canonicalLocale
  | locales
  | pendingFile
  deriving DecidableEq

/-- All settings. -/
def Field.all : List Field :=
  [.sourceRoot, .includes, .ignores, .extensions, .callName, .localesRoot, .canonicalLocale,
    .locales, .pendingFile]

/-- The name of a setting. -/
def Field.name : Field → String
  | .sourceRoot => "sourceRoot"
  | .includes => "includes"
  | .ignores => "ignores"
  | .extensions => "extensions"
  | .callName => "callName"
  | .localesRoot => "localesRoot"
  | .canonicalLocale => "canonicalLocale"
  | .locales => "locales"
  | .pendingFile => "pendingFile"

/-- The setting of a name; one setting has a second name. -/
def Field.ofName? (name : String) : Option Field :=
  if name = "localesDir" then some .localesRoot
  else Field.all.find? (·.name = name)

/-- A reader that changes a configuration. -/
abbrev Change : Type := Config → Config

/-- Reads the value of a setting. -/
def Field.reader (field : Field) : Json.Reader Change := fun input =>
  match field with
  | .sourceRoot => (Json.text input).map (·.map fun v c => { c with sourceRoot := v })
  | .includes => (Json.list Json.text input).map (·.map fun v c => { c with includes := v })
  | .ignores => (Json.list Json.text input).map (·.map fun v c => { c with ignores := v })
  | .extensions => (Json.list Json.text input).map (·.map fun v c => { c with extensions := v })
  | .callName => (Json.text input).map (·.map fun v c => { c with callName := v })
  | .localesRoot => (Json.text input).map (·.map fun v c => { c with localesRoot := v })
  | .canonicalLocale => (Json.text input).map (·.map fun v c => { c with canonicalLocale := v })
  | .locales => (Json.list Json.text input).map (·.map fun v c => { c with locales := v })
  | .pendingFile => (Json.text input).map (·.map fun v c => { c with pendingFile := v })

/-! ## 2. Objects -/

/-- The report of a setting that is set again: behind the blanks that follow its name, and behind a
    brace that follows those. -/
def duplicateFault (field : Field) (behindName : List Char) : Json.Fault :=
  match Json.skipSpace behindName with
  | '}' :: rest => .before rest (.duplicateField field.name)
  | rest => .before rest (.duplicateField field.name)

/-- Reads the value of a member. -/
def memberValue (field : Option Field) : Json.Reader Change := fun input =>
  match field with
  | some field => field.reader input
  | none => (Json.skipValue input).map (·.map fun _ c => c)

/-- Reads the name of a member, which must not be that of a setting in `seen`, from behind its
    opening quote on. -/
def memberField (seen : List Field) : Json.Reader (Option Field) := fun input => do
  let name ← Json.quotedChars input
  match Field.ofName? (String.ofList name.value) with
  | none => return name.map fun _ => none
  | some field =>
    if field ∈ seen then throw (duplicateFault field name.rest)
    else return name.map fun _ => some field

/-- Reads members from behind the opening quote of a name on. `seen` holds the settings that were
    set before. -/
def members (seen : List Field) : Json.Reader Change := fun input => do
  let field ← memberField seen input
  let mark ← Json.colon field.rest
  let value ← memberValue field.value mark.rest
  let first := field.followedBy (mark.followedBy value)
  let next ← Json.behindMember first.rest
  if next.value then
    let more ← members (field.value.toList ++ seen) next.rest
    return first.followedBy (next.followedBy (more.map (· ∘ first.value)))
  else return first.followedBy (next.map fun _ => first.value)
termination_by input => input.length
decreasing_by exact Nat.lt_trans next.shorter first.shorter

/-- Reads an object behind its opening brace. -/
def objectBody : Json.Reader Change := fun input => do
  let start ← Json.behindBrace input
  if start.value then return start.followedBy (← members [] start.rest)
  else return start.map fun _ => id

/-! ## 3. Lists -/

/-- The end of a list of settings that is complete. -/
def listEnd : Json.Reader Unit := fun input =>
  match Json.token? input with
  | none => .error (.within [] .endInList)
  | some token =>
    if token.value = ']' then .ok (token.map fun _ => ())
    else if token.value = ',' then
      match Json.token? token.rest with
      | none => .error (.within [] .trailingCharacters)
      | some next =>
        .error (.within next.chars
          (if next.value = ']' then .trailingComma else .trailingCharacters))
    else .error (.within token.chars .trailingCharacters)

/-- Reads the values of the settings in their order, from the first one on. -/
def listItems : Field → List Field → Json.Reader Change
  | field, [] => fun input => do
    let value ← field.reader input
    let close ← listEnd value.rest
    return value.followedBy (close.map fun _ => value.value)
  | field, following :: others => fun input => do
    let value ← field.reader input
    let next ← Json.behindItem value.rest
    if next.value then
      let more ← listItems following others next.rest
      return value.followedBy (next.followedBy (more.map (· ∘ value.value)))
    else return value.followedBy (next.map fun _ => value.value)

/-- Reads a list behind its opening bracket. -/
def listBody : Json.Reader Change := fun input => do
  match ← Json.emptyEnd? input with
  | some close => return close.map fun _ => id
  | none => listItems .sourceRoot Field.all.tail input

/-! ## 4. Configurations -/

/-- Reads the settings that a text sets. -/
def changes : Json.Reader Change := fun input =>
  match Json.token? input with
  | none => .error (.within [] .endInValue)
  | some token =>
    if token.value = '{' then (objectBody token.rest).map token.followedBy
    else if token.value = '[' then (listBody token.rest).map token.followedBy
    else .error (Json.wrongType .config token)

/-- Reads a configuration; what is not set keeps its default. -/
def reader : Json.Reader Config := fun input =>
  (changes input).map (·.map fun change => change Config.default)

/-- Reads the text of a configuration file. -/
def ofText (text : String) : Except Json.Malformation Config :=
  Json.document reader text

end LocaleCatalog.Config
