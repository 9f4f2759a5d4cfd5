import Traceability.Text.Pattern
import Traceability.Text.Utf8
import Traceability.Text.Quoted
import Traceability.Text.Halves
import Traceability.Text.Casing
import Traceability.Digest.Algorithm
import Traceability.Path
import Traceability.Construct
import Traceability.Source.Fingerprint
import Traceability.Source.Declaration
import Traceability.Source.Extent
import Traceability.Source.Structure
import Traceability.Json.Reader
import Traceability.Json.Writer
import Traceability.Snapshot.Document
import Traceability.Store.Document
import Traceability.Patch.Reader
import Traceability.Patch.Apply
import Traceability.Tag
import Traceability.Toml.Reader
import Traceability.Toml.Writer
import Traceability.Timestamp
import Traceability.Report
import Traceability.Failure
import Traceability.Disk
import Traceability.FileTree
import Traceability.Config
import Traceability.Config.Starter
import Traceability.Workspace
import Traceability.StructuralParser
import Traceability.Validation
import Traceability.Simulation
import Traceability.Injection
import Traceability.Context
import Traceability.CommandLine.Options
import Traceability.CommandLine.Invocation
import Traceability.CommandLine.Commands
import Traceability.Main
import Traceability.Proofs.Patch.Diff
import Traceability.Proofs.Patch.RoundTrip
import Traceability.Proofs.Simulation.Prediction
import Traceability.Proofs.Tag
import Traceability.Proofs.Injection.Step
import Traceability.Proofs.Injection.Run
import Traceability.Proofs.Simulation.Breakage
import Traceability.Proofs.Simulation.Series
import Traceability.Proofs.Injection.Line
import Traceability.Proofs.Store.RoundTrip
import Traceability.Proofs.Json.Writer
import Traceability.Proofs.FileTree.Growth
import Traceability.Proofs.Validation.Verdicts
import Traceability.Proofs.Store.Saved
import Traceability.Proofs.Workspace
import Traceability.Proofs.CommandLine.Sync
import Traceability.Proofs.CommandLine.Session
import Traceability.Proofs.Patch.Conservation
import Traceability.Proofs.Snapshot.RoundTrip
import Traceability.Proofs.Patch.Concatenation
import Traceability.Proofs.Simulation.Concatenation
import Traceability.Proofs.Source.Comment
import Traceability.Proofs.Source.Extent
import Traceability.Proofs.Source.Tagging
import Traceability.Proofs.Patch.Conflict
import Traceability.Proofs.Patch.Counts
import Traceability.Proofs.Patch.Deletion
import Traceability.Proofs.Patch.Matching
import Traceability.Proofs.Patch.Returns
import Traceability.Proofs.Patch.Agreement
import Traceability.Proofs.Source.Extraction
import Traceability.Proofs.Source.Snippet
import Traceability.Proofs.Source.Braces
import Traceability.Proofs.Source.Nesting
import Traceability.Proofs.Source.CommentedOut
import Traceability.Proofs.Source.Layout
import Traceability.Proofs.Source.Stripping
import Traceability.Proofs.Source.TrailingComment
import Traceability.Proofs.Source.Literal
import Traceability.Proofs.Tag.Declaring
import Traceability.Proofs.Tag.Recognition
import Traceability.Proofs.Store.Grammar
import Traceability.Proofs.Validation.Strictness
import Traceability.Proofs.Timestamp.Calendar
import Traceability.Proofs.Timestamp.Order
import Traceability.Proofs.Config.Merge
import Traceability.Proofs.CommandLine.Announcement
import Traceability.Proofs.Config.Environment
import Traceability.Proofs.Patch.Nearest
import Traceability.Proofs.Patch.Split
import Traceability.Proofs.Path.Spelling
import Traceability.Proofs.Source.BareCode
import Traceability.Proofs.Workspace.Spelling
import Traceability.Proofs.Snapshot.WalkOrder
import Traceability.Proofs.Context.TaskOrder
