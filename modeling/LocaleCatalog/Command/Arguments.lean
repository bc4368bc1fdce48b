import LocaleCatalog.FileTree.Path

/-!
# Command lines

`Invocation.parse` reads the arguments of the program to what is to be done, or says what is wrong
with them. An option may be given once; its value is the next argument, or follows an equals sign.

* An option that waits for its value is settled by the next option, or by the end of the arguments
  (`Options.settle`): until then nothing is said about it, so an argument that is no option at all
  is reported before a value that is missing;
* `--` ends the options; no command takes other arguments.
-/

namespace LocaleCatalog.Command

/-! ## 1. Results -/

/-- What ends the reading of arguments early. -/
inductive UsageError where
  | displayHelp
  | displayVersion
  | unknownArgument
  | invalidSubcommand
  | invalidValue
  | argumentConflict
  | tooManyValues
  deriving DecidableEq

/-- Asking for help or for the version is no failure. -/
def UsageError.exitCode : UsageError → Nat
  | .displayHelp | .displayVersion => 0
  | _ => 2

/-- The options of a command; each may override a setting. -/
structure Options where
  root : Option String := none
  canonicalLocale : Option String := none
  sourceRoot : Option String := none
  localesRoot : Option String := none
  verbose : Bool := false

/-- What is to be done. -/
inductive Invocation where
  | help
  | synchronize (options : Options)
  | merge (options : Options)
  | status (options : Options)
  | init

/-! ## 2. Options -/

/-- The options that take a value. -/
inductive ValueOption where
  | root
  | canonicalLocale
  | sourceRoot
  | localesRoot
  deriving DecidableEq

/-- The value of the option is a path, and no path is empty. -/
def ValueOption.isPath : ValueOption → Bool
  | .canonicalLocale => false
  | _ => true

/-- What an option means to a command. -/
inductive Switch where
  | help
  | version
  | verbose
  | value (option : ValueOption)

/-- The long options of the commands that work on a project. -/
def projectLong? (name : String) : Option Switch :=
  if name = "help" then some .help
  else if name = "verbose" then some .verbose
  else if name = "root" then some (.value .root)
  else if name = "canonical-locale" then some (.value .canonicalLocale)
  else if name = "source-root" then some (.value .sourceRoot)
  else if name = "locales-root" then some (.value .localesRoot)
  else none

/-- The short options of the commands that work on a project. -/
def projectShort? (letter : Char) : Option Switch :=
  if letter = 'h' then some .help
  else if letter = 'v' then some .verbose
  else none

/-- The options that a command knows. -/
structure Switches where
  long? : String → Option Switch
  short? : Char → Option Switch

/-- The options of the commands that work on a project. -/
def Switches.project : Switches := ⟨projectLong?, projectShort?⟩

/-- The options of a command that takes none but help. -/
def Switches.helpOnly : Switches where
  long? name := if name = "help" then some .help else none
  short? letter := if letter = 'h' then some .help else none

/-- The options that may stand before a command. -/
def Switches.general : Switches where
  long? name :=
    if name = "help" then some .help else if name = "version" then some .version else none
  short? letter :=
    if letter = 'h' then some .help else if letter = 'V' then some .version else none

/-- The value that was given to an option. -/
def Options.value? (options : Options) : ValueOption → Option String
  | .root => options.root
  | .canonicalLocale => options.canonicalLocale
  | .sourceRoot => options.sourceRoot
  | .localesRoot => options.localesRoot

/-- The options with one more value. -/
def Options.withValue (options : Options) (value : String) : ValueOption → Options
  | .root => { options with root := some value }
  | .canonicalLocale => { options with canonicalLocale := some value }
  | .sourceRoot => { options with sourceRoot := some value }
  | .localesRoot => { options with localesRoot := some value }

/-- Gives a value to an option, once. -/
def Options.assign (options : Options) (option : ValueOption) (value : String) :
    Except UsageError Options :=
  if (options.value? option).isSome then .error .argumentConflict
  else if option.isPath ∧ value = "" then .error .invalidValue
  else .ok (options.withValue value option)

/-- An option that takes a value, and its value once it was seen. -/
abbrev Pending : Type := Option (ValueOption × Option String)

/-- Gives the pending option its value. -/
def Options.settle (options : Options) : Pending → Except UsageError Options
  | none => .ok options
  | some (_, none) => .error .invalidValue
  | some (option, some value) => options.assign option value

/-- Does what an option without a value asks for. -/
def Options.switch (options : Options) : Switch → Except UsageError Options
  | .help => .error .displayHelp
  | .version => .error .displayVersion
  | .verbose =>
    if options.verbose then .error .argumentConflict else .ok { options with verbose := true }
  | .value _ => .error .invalidValue

/-! ## 3. Arguments of a command -/

/-- A long option as it is written: its name, and its value if an equals sign is there. -/
def splitLong (chars : List Char) : String × Option String :=
  match chars.dropWhile (· ≠ '=') with
  | _ :: value => (String.ofList (chars.takeWhile (· ≠ '=')), some (String.ofList value))
  | [] => (String.ofList chars, none)

/-- Short options one behind the other. No short option takes a value. -/
def shortOptions (switches : Switches) (options : Options) (pending : Pending) :
    List Char → Except UsageError Options
  | [] => options.settle pending
  | letter :: letters => do
    match switches.short? letter with
    | none => throw .unknownArgument
    | some switch =>
      let options ← (← options.settle pending).switch switch
      shortOptions switches options none letters

/-- Reads the arguments of a command. -/
def readOptions (switches : Switches) (options : Options) (pending : Pending) :
    List String → Except UsageError Options
  | [] => options.settle pending
  | argument :: more => do
    match argument.toList with
    | ['-', '-'] => if more = [] then options.settle pending else throw .unknownArgument
    | '-' :: '-' :: chars =>
      let (name, value) := splitLong chars
      match switches.long? name, value with
      | none, _ => throw .unknownArgument
      | some (.value option), some value =>
        readOptions switches (← (← options.settle pending).assign option value) none more
      | some (.value option), none =>
        readOptions switches (← options.settle pending) (some (option, none)) more
      | some _, some _ => throw .tooManyValues
      | some switch, none =>
        readOptions switches (← (← options.settle pending).switch switch) none more
    | '-' :: letter :: letters =>
      readOptions switches (← shortOptions switches options pending (letter :: letters)) none more
    | _ =>
      match pending with
      | some (option, none) => readOptions switches options (some (option, some argument)) more
      | _ => throw .unknownArgument

/-- Takes the starting directory from the environment, if no option gave one. -/
def Options.withEnvironment (options : Options) (root : Option String) :
    Except UsageError Options :=
  match options.root, root with
  | none, some value => options.assign .root value
  | _, _ => .ok options

/-! ## 4. Commands -/

/-- The commands. -/
inductive Verb where
  | synchronize
  | merge
  | status
  | init
  | help

/-- The command of a name; one command has a second name. -/
def Verb.ofName? (name : String) : Option Verb :=
  if name = "synchronize" ∨ name = "sync" then some .synchronize
  else if name = "merge" then some .merge
  else if name = "status" then some .status
  else if name = "init" then some .init
  else if name = "help" then some .help
  else none

/-- Reads the arguments behind a command. -/
def Verb.parse (verb : Verb) (environmentRoot : Option String) (arguments : List String) :
    Except UsageError Invocation := do
  let options : Except UsageError Options := do
    (← readOptions .project {} none arguments).withEnvironment environmentRoot
  match verb with
  | .synchronize => return .synchronize (← options)
  | .merge => return .merge (← options)
  | .status => return .status (← options)
  | .init =>
    let _ ← readOptions .helpOnly {} none arguments
    return .init
  | .help =>
    match arguments with
    | [] => throw .displayHelp
    | [name] => throw (if (Verb.ofName? name).isSome then .displayHelp else .invalidSubcommand)
    | _ => throw .invalidSubcommand

/-- Reads the arguments of the program. `environmentRoot` is the starting directory that the
    environment gives. -/
def Invocation.parse (environmentRoot : Option String) :
    List String → Except UsageError Invocation
  | [] => .ok .help
  | argument :: more =>
    match Verb.ofName? argument with
    | some verb => verb.parse environmentRoot more
    | none =>
      match argument.toList with
      | ['-', '-'] =>
        match more with
        | [] => .ok .help
        | next :: _ =>
          .error (if (Verb.ofName? next).isSome then .unknownArgument else .invalidSubcommand)
      | '-' :: _ :: _ => do
        let _ ← readOptions .general {} none [argument]
        throw .unknownArgument
      | _ => .error .invalidSubcommand

end LocaleCatalog.Command
