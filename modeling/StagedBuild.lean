import StagedBuild.Execution.Signals
import StagedBuild.Execution.Store
import StagedBuild.Main
import StagedBuild.Proofs.Execution.Delivery
import StagedBuild.Proofs.Execution.Isolation
import StagedBuild.Proofs.Planning.Selection
import StagedBuild.Proofs.Diagnostic.Cycle
import StagedBuild.Proofs.Alias.Registration
import StagedBuild.Proofs.Planning.Outcome
import StagedBuild.Proofs.Planning.Independence
import StagedBuild.Proofs.Planning.Rebuild
import StagedBuild.Proofs.Json.Syntax
import StagedBuild.Proofs.Json.Reading
import StagedBuild.Proofs.Json.Codec
import StagedBuild.Proofs.Json.RoundTrip
import StagedBuild.Proofs.Alias.History
import StagedBuild.Proofs.Execution.SignalFamilies
import StagedBuild.Proofs.Text.Lines
import StagedBuild.Proofs.Json.OneLine
import StagedBuild.Proofs.CommandLine.DiagnosticStream
import StagedBuild.Proofs.Path.Names
import StagedBuild.Proofs.FileTree.Changes
import StagedBuild.Proofs.Execution.Results
import StagedBuild.Proofs.Execution.Storage
import StagedBuild.Proofs.Execution.PlannedRuns
import StagedBuild.Proofs.Text.SegmentPrefix
import StagedBuild.Proofs.Alias.Order
import StagedBuild.Proofs.CommandLine.Runs
import StagedBuild.Proofs.CommandLine.PlanRequest
import StagedBuild.Proofs.CommandLine.PlanCommand
import StagedBuild.Proofs.Alias.Resolution
import StagedBuild.Proofs.Path.Slashes
import StagedBuild.Proofs.Alias.Directory
import StagedBuild.Proofs.Execution.Fold
import StagedBuild.Proofs.Diagnostic.Suppression
import StagedBuild.Proofs.Text.Words
import StagedBuild.Proofs.Report.Outline
import StagedBuild.Proofs.Report.Sections
import StagedBuild.Proofs.Report.Markdown
import StagedBuild.Proofs.Json.Rearrangement
import StagedBuild.Proofs.Collections
import StagedBuild.Proofs.Json.RecordReading
import StagedBuild.Proofs.Json.Records
import StagedBuild.Proofs.Alias.TrailingSlashes
import StagedBuild.Proofs.Planning.Externals
import StagedBuild.Proofs.Planning.DeclaredNames
import StagedBuild.Proofs.Planning.ConfiguredSettings
import StagedBuild.Proofs.Alias.SegmentOrder
import StagedBuild.Proofs.Path.Absolutize
import StagedBuild.Proofs.Stage.KeySpelling
import StagedBuild.Proofs.CommandLine.ExplainCommand
