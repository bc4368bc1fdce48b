import LocaleCatalog.Command.Arguments
import LocaleCatalog.Command.Outcome
import LocaleCatalog.Command.Style

/-!
# Reports

The words for what a command did. Results go to the output; merges that were refused, and errors,
go to the error stream. Every line is written here, and nothing else decides what is written.
-/

namespace LocaleCatalog.Command

/-! ## 1. Lines -/

/-- What a command writes. -/
structure Report where
  output : List String := []
  errors : List String := []

/-- Lines as one text. -/
def lines (texts : List String) : String :=
  String.join (texts.map (· ++ "\n"))

/-- A mark for what succeeded. -/
def successMark : String := "✓"

/-- A mark for what failed. -/
def failureMark : String := "✘"

/-- A number and what it counts. -/
def counted (count : Nat) (one many : String) : String :=
  let noun := if count = 1 then one else many
  s!"{count} {noun}"

/-- A number of keys. -/
def countedKeys (count : Nat) : String := counted count "key" "keys"

/-- A number of entries. -/
def countedEntries (count : Nat) : String := counted count "entry" "entries"

/-- How many keys are listed of a long list. -/
def listedKeys : Nat := 20

section

variable (colours : Bool)

/-- The name of a command of this program. -/
def commandName (text : String) : String := paint colours .cyan text

/-- What an error line starts with. -/
def errorMark : String := paint colours .boldRed "error:"

/-- The mark for what succeeded, as it is shown. -/
def tick : String := paint colours .green successMark

/-- The mark for what failed, as it is shown. -/
def cross : String := paint colours .red failureMark

/-! ## 2. Synchronizing -/

/-- What follows a list of keys of which some are not shown. -/
def cutOffLine (count : Nat) : String :=
  let rest := paint colours .dimmed s!"... and {count} more"
  let option := commandName colours "-v"
  s!"  {rest} (use {option} to list all)"

/-- A list of keys under a heading; a long one is cut off unless all is wanted. -/
def keyLines (heading marker : String) (keys : List String) (all : Bool) : List String :=
  if keys = [] then []
  else
    let shown := if all then keys.length else listedKeys
    let cut := keys.length - shown
    [s!"{heading} ({keys.length}):"] ++ (keys.take shown).map (fun key => s!"  {marker} {key}") ++
      if cut = 0 then [] else [cutOffLine colours cut]

/-- What became of a locale. -/
def localeLine (summary : Sync.LocaleSummary) : String :=
  let name := paint colours .bold summary.locale
  let keys := countedKeys summary.keys
  let pending := paint colours .yellow s!"{summary.pending} pending"
  if summary.pending = 0 then s!"{tick colours} {name}: {keys}" else s!"  {name}: {keys}, {pending}"

/-- What became of a batch that was written. -/
def writtenLines (batch : Path) (entries carried : Nat) : List String :=
  let wrote := paint colours .boldYellow "Wrote pending batch"
  let kept := counted carried "translated entry" "translated entries"
  let command := commandName colours "glotsync merge"
  [s!"{wrote} {batch.text} ({countedEntries entries})"] ++
    (if carried = 0 then [] else [s!"  kept {kept} from the previous batch"]) ++
    [s!"Fill in every blank entry, then run {command}."]

/-- What became of the batch. -/
def batchLines (batch : Path) : Sync.BatchOutcome → List String
  | .written entries carried => writtenLines colours batch entries carried
  | .upToDate removedStale =>
    let done := paint colours .green "All locales are up to date"
    (if removedStale then [s!"Removed stale pending batch {batch.text}"] else []) ++
      [s!"{tick colours} {done}"]

/-- What a synchronization did. -/
def synchronizedLines (sourceFiles : Nat) (report : Sync.Report) (batch : Path)
    (verbose : Bool) : List String :=
  let files := counted sourceFiles "source file" "source files"
  let added := paint colours .green "+"
  let removed := paint colours .red "-"
  [s!"Scanned {files}, found {countedKeys report.keyCount}"] ++
    keyLines colours "Added keys" added report.diff.added verbose ++
    keyLines colours "Removed keys" removed report.diff.removed verbose ++
    report.locales.map (localeLine colours) ++
    batchLines colours batch report.batch

/-! ## 3. Merging -/

/-- What was merged of a locale. -/
def mergedLine (locale : String) (count : Nat) : String :=
  let name := paint colours .bold locale
  s!"{tick colours} {name}: merged {countedEntries count}"

/-- Why a locale failed. -/
def failureLine (locale : String) (error : StoreError) : String :=
  let name := paint colours .bold locale
  s!"{cross colours} {name}: {error.message}"

/-- What is to be done about the locales that failed. -/
def failureAdvice (count : Nat) (batch : Path) : List String :=
  let failed := counted count "locale" "locales"
  let command := commandName colours "glotsync merge"
  let fate := s!"could not be updated; their entries remain in {batch.text}"
  [s!"{errorMark colours} {failed} {fate}", s!"Fix the problem and run {command} again."]

/-- What a merge did. -/
def mergedReport (report : Merge.Report) (batch : Path) : Report where
  output :=
    let merged := paint colours .boldGreen "Merged"
    (report.locales.map fun (locale, count) => mergedLine colours locale count) ++
      [s!"{merged} {countedEntries report.merged}"] ++
      if report.batchRetired then [s!"Removed pending batch {batch.text}"] else []
  errors :=
    (report.failures.toList.map fun (locale, error) => failureLine colours locale error) ++
      if report.batchRetired then [] else failureAdvice colours report.failures.size batch

/-- Why there was nothing to merge. -/
def nothingToMergeLines (batch : Path) : List String :=
  let command := commandName colours "glotsync synchronize"
  [s!"{errorMark colours} Nothing to merge: {batch.text} does not exist.", s!"Run {command} first."]

/-- Why a batch was refused. -/
def rejectedLines (problems : List BatchProblem) (batch : Path) : List String :=
  let toFix := countedEntries problems.length
  [s!"{errorMark colours} Pending batch {batch.text} is incomplete; nothing was merged."] ++
    (problems.map fun problem => s!"  {cross colours} {problem.message}") ++
    [paint colours .dimmed s!"{toFix} must be fixed before merging"]

/-! ## 4. Status -/

/-- How far a locale is translated. -/
def statusLine (status : LocaleStatus) : String :=
  let name := paint colours .bold status.locale
  let blank := paint colours (if status.blank = 0 then .green else .yellow) s!"{status.blank} blank"
  s!"  {name}: {status.filled} filled, {blank}"

/-- What is to be done about a batch. -/
def statusAdvice (blank : Nat) : String :=
  let command := commandName colours "glotsync merge"
  if blank = 0 then s!"{tick colours} Ready to merge: run {command}"
  else s!"{countedEntries blank} without a translation"

/-- What is still to be done. -/
def statusLines (batch : Path) : Option (List LocaleStatus) → List String
  | none =>
    let nothing := paint colours .green "No pending batch: no outstanding translation work"
    [s!"{tick colours} {nothing}"]
  | some pending =>
    let blank := pending.foldl (fun count status => count + status.blank) 0
    [s!"Pending batch {batch.text}:"] ++ pending.map (statusLine colours) ++
      [statusAdvice colours blank]

/-! ## 5. All outcomes -/

/-- The words for a configuration file that was written. -/
def createdLine : String :=
  let created := paint colours .green s!"Created {Config.fileName}"
  s!"{tick colours} {created}"

/-- The words for an outcome. -/
def Outcome.report : Outcome → Report
  | .synchronized files report batch verbose =>
    { output := synchronizedLines colours files report batch verbose }
  | .merged report batch => mergedReport colours report batch
  | .nothingToMerge batch => { errors := nothingToMergeLines colours batch }
  | .rejected problems batch => { errors := rejectedLines colours problems batch }
  | .status pending batch => { output := statusLines colours batch pending }
  | .configCreated => { output := [createdLine colours] }
  | .configExists => { errors := [s!"{errorMark colours} {Config.fileName} already exists"] }

/-- The words for an error, with what lies behind it. -/
def Error.report (error : Error) : Report where
  errors :=
    let mark := paint colours .dimmed "caused by:"
    s!"{errorMark colours} {error.message}" ::
      error.causes.map fun cause => s!"  {mark} {cause}"

end

/-! ## 6. Help and mistakes in the arguments -/

/-- What the program says of itself when it is told to do nothing. -/
def helpLines : List String := [
  "Extract translation keys from source text and keep locale files in sync",
  "",
  "Usage: glotsync [COMMAND]",
  "",
  "Commands:",
  "  synchronize  Extract translation keys and rebuild every locale file, writing a pending batch [alias: sync]",
  "  merge        Merge a fully translated pending batch into the locale files",
  "  status       Show whether translation work is outstanding",
  "  init         Initialize a new .glotsyncrc.json configuration file",
  "  help         Print this message or the help of the given subcommand(s)",
  "",
  "Options:",
  "  -h, --help     Print help",
  "  -V, --version  Print version"]

/-- The wording of a mistake in the arguments. -/
def UsageError.message : UsageError → String
  | .displayHelp | .displayVersion => ""
  | .unknownArgument => "unexpected argument"
  | .invalidSubcommand => "unrecognized subcommand"
  | .invalidValue => "an option lacks its value"
  | .argumentConflict => "an option cannot be used multiple times"
  | .tooManyValues => "an option was given a value that it does not take"

/-- What is written when the arguments are no command. -/
def UsageError.report : UsageError → Report
  | .displayHelp => { output := helpLines }
  | .displayVersion => { output := ["glotsync 0.1.0"] }
  | error => { errors := [s!"error: {error.message}", "", "For more information, try '--help'."] }

end LocaleCatalog.Command
