import LocaleCatalog.Merge.Run
import LocaleCatalog.Project
import LocaleCatalog.Sync.Run

/-!
# Outcomes of commands

What a command found and did, before any of it is put into words, with the exit code that goes with
it: zero when nothing is left to act on, one when the command ran and could not finish its job, and
two when it was broken off.
-/

namespace LocaleCatalog.Command

/-! ## 1. Outcomes -/

/-- How far a locale of a batch is translated. -/
structure LocaleStatus where
  locale : String
  filled : Nat
  blank : Nat
  deriving DecidableEq

/-- What a command found and did. -/
inductive Outcome where
  | synchronized (sourceFiles : Nat) (report : Sync.Report) (batch : Path) (verbose : Bool)
  | merged (report : Merge.Report) (batch : Path)
  | nothingToMerge (batch : Path)
  | rejected (problems : List BatchProblem) (batch : Path)
  /-- `none` when there is no batch. -/
  | status (pending : Option (List LocaleStatus)) (batch : Path)
  | configCreated
  | configExists

/-- The exit code of a command that was not broken off. -/
def Outcome.exitCode : Outcome → Nat
  | .synchronized .. | .status .. | .configCreated => 0
  | .merged report _ => if report.isComplete then 0 else 1
  | .nothingToMerge _ | .rejected .. | .configExists => 1

/-! ## 2. Errors -/

/-- Why a command was broken off. -/
inductive Error where
  | config (error : Config.Error)
  | sources (error : Sync.SourceError)
  | store (error : StoreError)
  | merge (error : Merge.Error)
  | configNotWritten (error : IoError)

/-- The wording of an error. -/
def Error.message : Error → String
  | .config error => error.message
  | .sources error => error.message
  | .store error => error.message
  | .merge error => error.message
  | .configNotWritten _ => s!"Failed to write {Config.fileName}"

/-- What lies behind an error. -/
def Error.causes : Error → List String
  | .config error => error.causes
  | .sources (.unreadable _ error) => [error.message]
  | .sources (.noSourceFiles _) => []
  | .store error | .merge (.store error) => [error.cause]
  | .merge _ => []
  | .configNotWritten error => [error.message]

/-- The exit code of a command that was broken off. -/
def brokenOff : Nat := 2

/-! ## 3. Status -/

/-- How far each locale of a batch is translated. -/
def batchStatus (batch : Batch) : List LocaleStatus :=
  batch.toList.map fun (locale, entries) =>
    let blank := entries.blankKeys.length
    ⟨locale, entries.size - blank, blank⟩

end LocaleCatalog.Command
