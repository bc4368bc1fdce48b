import LocaleCatalog.Main
import LocaleCatalog.Proofs.Merge.Conservation
import LocaleCatalog.Proofs.Merge.Gate
import LocaleCatalog.Proofs.Source.Reference
import LocaleCatalog.Proofs.Catalog.Open
import LocaleCatalog.Proofs.Sync.Run
import LocaleCatalog.Proofs.Catalog.Contents
import LocaleCatalog.Proofs.Sync.Absorption
import LocaleCatalog.Proofs.Merge.Ending
import LocaleCatalog.Proofs.History.Basic
import LocaleCatalog.Proofs.History.Consistency
import LocaleCatalog.Proofs.History.Retention
import LocaleCatalog.Proofs.Merge.Completion
import LocaleCatalog.Proofs.History.Convergence
import LocaleCatalog.Proofs.Catalog.Interruption
import LocaleCatalog.Proofs.Sync.Restart
import LocaleCatalog.Proofs.Catalog.Persistence
import LocaleCatalog.Proofs.Command.Gate
import LocaleCatalog.Proofs.Merge.Rerun
import LocaleCatalog.Proofs.Source.Written
import LocaleCatalog.Proofs.Command.Status
import LocaleCatalog.Proofs.FileTree.Landing
import LocaleCatalog.Proofs.Sync.Survival
import LocaleCatalog.Proofs.FileTree.Graft
import LocaleCatalog.Proofs.Glob.Pattern
import LocaleCatalog.Proofs.Glob.Expand
import LocaleCatalog.Proofs.Glob.Base
import LocaleCatalog.Proofs.Source.Relocation
import LocaleCatalog.Proofs.Source.Roots
import LocaleCatalog.Proofs.Source.Calls
import LocaleCatalog.Proofs.Source.Composition
import LocaleCatalog.Proofs.Merge.Problems
import LocaleCatalog.Proofs.Config.Locales
import LocaleCatalog.Proofs.Command.Keys
import LocaleCatalog.Proofs.Text.Lossy
import LocaleCatalog.Proofs.Sync.Encoding
import LocaleCatalog.Proofs.Command.Tally
import LocaleCatalog.Proofs.Source.Found
import LocaleCatalog.Proofs.FileTree.Absolute
import LocaleCatalog.Proofs.Config.Search
import LocaleCatalog.Proofs.FileTree.Anchored
import LocaleCatalog.Proofs.Source.Anchored
import LocaleCatalog.Proofs.Command.Anywhere
import LocaleCatalog.Proofs.Catalog.LocaleSet
import LocaleCatalog.Proofs.Source.Agreement
