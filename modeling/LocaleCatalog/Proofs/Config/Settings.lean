import LocaleCatalog.Config.Reader
import LocaleCatalog.Proofs.Json.RoundTrip

/-!
# What a configuration file says

A configuration is what it has for each of its settings (`Config.value`), and a configuration file
may set any of them, in any order.

* `Config.copy` gives one setting the value that it has elsewhere and leaves the others alone
  (`Config.value_copy`);
* `Config.writeSome` writes some settings of a configuration. What is written is read as these
  settings above the defaults (`Config.ofText_writeSome`), so a setting that is left out has its
  default (`Config.exists_ofText`), and a configuration that is written as a whole reads back
  (`Config.ofText_write`).
-/

namespace LocaleCatalog.Config

/-! ## 1. Values -/

/-- The value of a setting. -/
inductive Value where
  | text (content : String)
  | list (items : List String)
  deriving DecidableEq

/-- A value as it is written behind the name of its setting. -/
def Value.write : Value → List Char
  | .text content => Json.writeText content
  | .list items => Json.writeList 1 items

/-- What a configuration has for a setting. -/
def value (config : Config) : Field → Value
  | .sourceRoot => .text config.sourceRoot
  | .includes => .list config.includes
  | .ignores => .list config.ignores
  | .extensions => .list config.extensions
  | .callName => .text config.callName
  | .localesRoot => .text config.localesRoot
  | .canonicalLocale => .text config.canonicalLocale
  | .locales => .list config.locales
  | .pendingFile => .text config.pendingFile

variable {source config first second : Config} {field : Field} {fields seen : List Field}
  {blanks : List Char}

/-- Configurations with the same values are the same. -/
theorem ext_value (h : ∀ field, first.value field = second.value field) : first = second := by
  cases first
  cases second
  have hsettings := And.intro (h .sourceRoot) <| And.intro (h .includes) <|
    And.intro (h .ignores) <| And.intro (h .extensions) <| And.intro (h .callName) <|
    And.intro (h .localesRoot) <| And.intro (h .canonicalLocale) <|
    And.intro (h .locales) (h .pendingFile)
  simpa only [value, Value.text.injEq, Value.list.injEq, Config.mk.injEq] using hsettings

/-- The change that gives a setting the value it has in another configuration. -/
def copy (source : Config) (field : Field) : Change := fun config =>
  match field with
  | .sourceRoot => { config with sourceRoot := source.sourceRoot }
  | .includes => { config with includes := source.includes }
  | .ignores => { config with ignores := source.ignores }
  | .extensions => { config with extensions := source.extensions }
  | .callName => { config with callName := source.callName }
  | .localesRoot => { config with localesRoot := source.localesRoot }
  | .canonicalLocale => { config with canonicalLocale := source.canonicalLocale }
  | .locales => { config with locales := source.locales }
  | .pendingFile => { config with pendingFile := source.pendingFile }

/-- No other setting is changed. -/
theorem value_copy (source config : Config) (field other : Field) :
    (source.copy field config).value other =
      if other = field then source.value field else config.value other := by
  cases field <;> cases other <;> rfl

/-- The change that copies some settings, one after the other. -/
def copyAll (source : Config) (fields : List Field) : Change := fun config =>
  fields.foldl (fun config field => source.copy field config) config

theorem value_copyAll (source config : Config) (fields : List Field) (field : Field) :
    (source.copyAll fields config).value field =
      if field ∈ fields then source.value field else config.value field := by
  induction fields generalizing config with
  | nil => rfl
  | cons first fields ih =>
    show (source.copyAll fields (source.copy first config)).value field = _
    rw [ih, value_copy]
    by_cases hfield : field = first
    · subst hfield
      simp
    · simp [hfield]

theorem Field.mem_all (field : Field) : field ∈ Field.all := by
  cases field <;> decide

/-! ## 2. Members -/

/-- The name of a setting is its own. -/
theorem Field.ofName?_name (field : Field) : Field.ofName? field.name = some field := by
  cases field <;> rfl

/-- A value that was written is read as the change to it. -/
theorem reads_value (source : Config) (field : Field) (rest : List Char) :
    Json.Reads field.reader (' ' :: ((source.value field).write ++ rest)) (source.copy field)
      rest := by
  have htext (text : String) : Json.Reads Json.text (' ' :: (Json.writeText text ++ rest)) text rest :=
    Json.reads_text Json.isSpace_space text rest
  have hlist (items : List String) :
      Json.Reads (Json.list Json.text) (' ' :: (Json.writeList 1 items ++ rest)) items rest :=
    Json.reads_list Json.isSpace_space 1 items rest
  cases field with
  | sourceRoot | callName | localesRoot | canonicalLocale | pendingFile => exact (htext _).map _
  | includes | ignores | extensions | locales => exact (hlist _).map _

/-- The name of a setting that was not set before. -/
theorem reads_memberField (hnew : field ∉ seen) (rest : List Char) :
    Json.Reads (memberField seen) (Json.writeChars field.name.toList ++ '"' :: rest) (some field)
      rest := by
  obtain ⟨shorter, hread⟩ := Json.reads_quotedChars field.name.toList rest
  refine ⟨shorter, ?_⟩
  unfold memberField
  rw [hread]
  simp only [bind, Except.bind, String.ofList_toList, Field.ofName?_name, if_neg hnew]
  rfl

/-- A setting with its name, for the writer of objects. -/
def named (field : Field) : String × Field := (field.name, field)

/-- A setting of a configuration as it is written, from behind the opening quote of its name on. -/
def writtenSetting (source : Config) (field : Field) : List Char :=
  Json.writtenMember (fun field => (source.value field).write) (named field)

/-- Behind a setting that was not set before, the others are read. -/
theorem members_eq (source : Config) (hnew : field ∉ seen) (tail : List Char) :
    ∃ shorter, members seen (source.writtenSetting field ++ tail) = do
      let first : Json.Parsed Change (source.writtenSetting field ++ tail) :=
        ⟨source.copy field, tail, shorter⟩
      let next ← Json.behindMember tail
      if next.value then
        let more ← members (field :: seen) next.rest
        return first.followedBy (next.followedBy (more.map (· ∘ source.copy field)))
      else return first.followedBy (next.map fun _ => source.copy field) := by
  have hsplit : source.writtenSetting field ++ tail = Json.writeChars field.name.toList ++
      '"' :: (':' :: ' ' :: ((source.value field).write ++ tail)) := by
    simp [writtenSetting, Json.writtenMember, named]
  obtain ⟨hname, hfield⟩ :=
    reads_memberField hnew (':' :: ' ' :: ((source.value field).write ++ tail))
  obtain ⟨hmark, hcolon⟩ := Json.reads_colon (' ' :: ((source.value field).write ++ tail))
  obtain ⟨hshort, hvalue⟩ := reads_value source field tail
  have hread : memberValue (some field) (' ' :: ((source.value field).write ++ tail)) =
      .ok ⟨source.copy field, tail, hshort⟩ := hvalue
  rw [hsplit]
  refine ⟨Nat.lt_trans hshort (Nat.lt_trans hmark hname), ?_⟩
  rw [members, hfield]
  simp only [bind, Except.bind]
  rw [hcolon]
  dsimp only
  rw [hread]
  rfl

theorem reads_members (source : Config) (field : Field) (fields : List Field)
    (hnodup : (field :: fields).Nodup) (hnew : ∀ other ∈ field :: fields, other ∉ seen)
    (rest : List Char) :
    Json.Reads (members seen) (source.writtenSetting field ++
        (Json.writtenMembers 1 (fun field => (source.value field).write) (fields.map named) ++
          (Json.newline 0 ++ '}' :: rest)))
      (source.copyAll (field :: fields)) rest := by
  induction fields generalizing field seen with
  | nil =>
    obtain ⟨hfirst, hmembers⟩ :=
      members_eq source (hnew field List.mem_cons_self) (Json.newline 0 ++ '}' :: rest)
    obtain ⟨hnext, hend⟩ := Json.reads_behindMember_end 0 rest
    refine ⟨Nat.lt_trans hnext hfirst, ?_⟩
    show members seen (source.writtenSetting field ++ (Json.newline 0 ++ '}' :: rest)) = _
    rw [hmembers, hend]
    rfl
  | cons next fields ih =>
    obtain ⟨hother, hnodup⟩ := List.nodup_cons.1 hnodup
    have hunseen : ∀ other ∈ next :: fields, other ∉ field :: seen := by
      intro other hmem
      rw [List.mem_cons, not_or]
      exact ⟨fun heq => hother (heq ▸ hmem), hnew other (List.mem_cons_of_mem _ hmem)⟩
    obtain ⟨hmore, hothers⟩ := ih next hnodup hunseen
    have hsplit : Json.writtenMembers 1 (fun field => (source.value field).write)
          ((next :: fields).map named) ++ (Json.newline 0 ++ '}' :: rest) =
        ',' :: (Json.newline 1 ++ '"' :: (source.writtenSetting next ++
          (Json.writtenMembers 1 (fun field => (source.value field).write) (fields.map named) ++
            (Json.newline 0 ++ '}' :: rest)))) := by
      simp [Json.writtenMembers, writtenSetting]
    rw [hsplit]
    obtain ⟨hcomma, hbehind⟩ := Json.reads_behindMember_comma 1 (source.writtenSetting next ++
      (Json.writtenMembers 1 (fun field => (source.value field).write) (fields.map named) ++
        (Json.newline 0 ++ '}' :: rest)))
    obtain ⟨hfirst, hmembers⟩ := members_eq source (hnew field List.mem_cons_self) _
    refine ⟨Nat.lt_trans hmore (Nat.lt_trans hcomma hfirst), ?_⟩
    rw [hmembers, hbehind]
    show (members (field :: seen) _ >>= _) = _
    rw [hothers]
    rfl

/-! ## 3. Texts -/

/-- Some settings of a configuration as a JSON object, in the order of the list. -/
def writeSome (source : Config) (fields : List Field) : String :=
  String.ofList (Json.writeObject 0 (fields.map fun field => (field.name, (source.value field).write)))

theorem write_eq_writeSome (source : Config) : source.write = source.writeSome Field.all := rfl

/-- Behind the quote of its first name an object is read as its members. -/
theorem objectBody_eq_members (input : List Char) :
    ∃ start, objectBody (Json.newline 1 ++ '"' :: input) =
      (members [] input).map (Json.Parsed.followedBy ⟨true, input, start⟩) := by
  obtain ⟨start, htoken⟩ :=
    Json.token?_behind_blanks (Json.isSpace_newline 1) (by decide) (c := '"') input
  refine ⟨start, ?_⟩
  unfold objectBody Json.behindBrace
  rw [htoken]
  show (members [] input >>= _) = _
  cases members [] input <;> rfl

/-- An object that was written is read as the change that copies its settings. -/
theorem reads_changes (source : Config) (hnodup : fields.Nodup) (rest : List Char) :
    Json.Reads changes (Json.writeObject 0 (fields.map fun field =>
        (field.name, (source.value field).write)) ++ rest) (source.copyAll fields) rest := by
  cases fields with
  | nil => exact ⟨Nat.lt_trans (Nat.lt_succ_self _) (Nat.lt_succ_self _), rfl⟩
  | cons field fields =>
    have hwritten := Json.writeObject_cons (fun field => (source.value field).write) 0 (named field)
      (fields.map named) rest
    rw [← List.map_cons, List.map_map] at hwritten
    obtain ⟨hmembers, hread⟩ := reads_members source field fields hnodup
      (fun other _ => List.not_mem_nil) rest
    obtain ⟨hbrace, hbody⟩ := objectBody_eq_members (source.writtenSetting field ++
      (Json.writtenMembers 1 (fun field => (source.value field).write) (fields.map named) ++
        (Json.newline 0 ++ '}' :: rest)))
    have hreads : Json.Reads changes ('{' :: (Json.newline 1 ++ '"' :: (source.writtenSetting field ++
        (Json.writtenMembers 1 (fun field => (source.value field).write) (fields.map named) ++
          (Json.newline 0 ++ '}' :: rest))))) (source.copyAll (field :: fields)) rest := by
      refine ⟨Nat.lt_trans (Nat.lt_trans hmembers hbrace) (Nat.lt_succ_self _), ?_⟩
      show (objectBody (Json.newline 1 ++ '"' :: _)).map _ = _
      rw [hbody, hread]
      rfl
    exact hwritten ▸ hreads

/-- Some settings that were written are read above the defaults, whatever blanks follow. -/
theorem ofText_writeSome (source : Config) (hnodup : fields.Nodup)
    (hblanks : ∀ b ∈ blanks, Json.isSpace b = true) :
    ofText (source.writeSome fields ++ String.ofList blanks) =
      .ok (source.copyAll fields default) := by
  refine Json.document_of_reads ?_ hblanks
  rw [String.toList_append, writeSome, String.toList_ofList, String.toList_ofList]
  exact (reads_changes source hnodup blanks).map fun change => change default

/-- A setting that a file leaves out has its default. -/
theorem exists_ofText (source : Config) (hnodup : fields.Nodup)
    (hblanks : ∀ b ∈ blanks, Json.isSpace b = true) :
    ∃ config, ofText (source.writeSome fields ++ String.ofList blanks) = .ok config ∧
      ∀ field, config.value field =
        if field ∈ fields then source.value field else default.value field :=
  ⟨_, ofText_writeSome source hnodup hblanks, value_copyAll source default fields⟩

/-- A configuration that was written reads back. -/
theorem ofText_write (config : Config) (hblanks : ∀ b ∈ blanks, Json.isSpace b = true) :
    ofText (config.write ++ String.ofList blanks) = .ok config := by
  rw [write_eq_writeSome, ofText_writeSome config (by decide) hblanks]
  refine congrArg Except.ok (ext_value fun field => ?_)
  rw [value_copyAll, if_pos field.mem_all]

end LocaleCatalog.Config
