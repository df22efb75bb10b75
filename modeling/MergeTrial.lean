import MergeTrial.Artifacts
import MergeTrial.Binary
import MergeTrial.Calendar
import MergeTrial.Classification
import MergeTrial.CommandLine.Action
import MergeTrial.CommandLine.Answer
import MergeTrial.CommandLine.Events
import MergeTrial.CommandLine.Perform
import MergeTrial.CommandLine.Request
import MergeTrial.CommandLine.Scan
import MergeTrial.Comparison
import MergeTrial.Corpus.Basic
import MergeTrial.Corpus.Load
import MergeTrial.Diff.Lines
import MergeTrial.Diff.Patch
import MergeTrial.Diff.Script
import MergeTrial.Diff.Unified
import MergeTrial.Fault
import MergeTrial.FileTree.Edit
import MergeTrial.FileTree.Listing
import MergeTrial.FileTree.Machine
import MergeTrial.FileTree.Node
import MergeTrial.FileTree.Path
import MergeTrial.Json.Decimal
import MergeTrial.Json.Printer
import MergeTrial.Json.Reader
import MergeTrial.Json.Shape
import MergeTrial.Json.Token
import MergeTrial.Json.Value
import MergeTrial.Label
import MergeTrial.Log.Directive
import MergeTrial.Log.Event
import MergeTrial.Log.Filter
import MergeTrial.Main
import MergeTrial.Marker
import MergeTrial.Metrics.Additional
import MergeTrial.Metrics.Confusion
import MergeTrial.Metrics.Report
import MergeTrial.Metrics.Share
import MergeTrial.NameMap
import MergeTrial.NameSet
import MergeTrial.Pass.Evaluation
import MergeTrial.Pass.Schedule
import MergeTrial.Pass.Sweep
import MergeTrial.Records.File
import MergeTrial.Records.Replay
import MergeTrial.Regex.Basic
import MergeTrial.Regex.Reader
import MergeTrial.Report.Json
import MergeTrial.Report.RunId
import MergeTrial.Report.Summary
import MergeTrial.Report.Text
import MergeTrial.Scenario
import MergeTrial.Settings
import MergeTrial.Shell.Alignment
import MergeTrial.Shell.Arithmetic
import MergeTrial.Shell.Builtin
import MergeTrial.Shell.Command
import MergeTrial.Shell.Condition
import MergeTrial.Shell.Editor.Reader
import MergeTrial.Shell.Editor.Run
import MergeTrial.Shell.Editor.Script
import MergeTrial.Shell.Execution
import MergeTrial.Shell.Expansion
import MergeTrial.Shell.Field
import MergeTrial.Shell.Host
import MergeTrial.Shell.Interpreter
import MergeTrial.Shell.Launch
import MergeTrial.Shell.Mode
import MergeTrial.Shell.Number
import MergeTrial.Shell.Pattern
import MergeTrial.Shell.Print
import MergeTrial.Shell.Process
import MergeTrial.Shell.Raw
import MergeTrial.Shell.Reader.Basic
import MergeTrial.Shell.Reader.Grammar
import MergeTrial.Shell.Reader.Word
import MergeTrial.Shell.Session
import MergeTrial.Shell.Signal
import MergeTrial.Shell.Startup
import MergeTrial.Shell.Utility.Columns
import MergeTrial.Shell.Utility.Comparing
import MergeTrial.Shell.Utility.Copying
import MergeTrial.Shell.Utility.Editing
import MergeTrial.Shell.Utility.Files
import MergeTrial.Shell.Utility.Launching
import MergeTrial.Shell.Utility.Lines
import MergeTrial.Shell.Utility.Listing
import MergeTrial.Shell.Utility.Merging
import MergeTrial.Shell.Utility.Options
import MergeTrial.Shell.Utility.Searching
import MergeTrial.Shell.Utility.Sorting
import MergeTrial.Shell.Utility.Table
import MergeTrial.Shell.Utility.Words
import MergeTrial.Shell.World
import MergeTrial.Status
import MergeTrial.Text.Blank
import MergeTrial.Text.Column
import MergeTrial.Text.Encoding
import MergeTrial.Tool.Arguments
import MergeTrial.Tool.Discovery
import MergeTrial.Tool.Outcome
import MergeTrial.Tool.Pass
import MergeTrial.Tool.Run
import MergeTrial.Tool.Staging
import MergeTrial.Tool.Substitution
import MergeTrial.Verdict
import MergeTrial.Proofs.Pass.Collection
import MergeTrial.Proofs.Pass.Assembly
import MergeTrial.Proofs.Pass.Invariant
import MergeTrial.Proofs.Pass.Termination
import MergeTrial.Proofs.Pass.Sequential
import MergeTrial.Proofs.Pass.Determinacy
import MergeTrial.Proofs.Metrics.Tally
import MergeTrial.Proofs.Metrics.Permutation
import MergeTrial.Proofs.Metrics.Pairwise
import MergeTrial.Proofs.Metrics.Accounting
import MergeTrial.Proofs.Json.Lexing
import MergeTrial.Proofs.Json.RoundTrip
import MergeTrial.Proofs.Records.RoundTrip
import MergeTrial.Proofs.Records.LiveReplay
import MergeTrial.Proofs.Corpus.Artifacts
import MergeTrial.Proofs.Corpus.Loading
import MergeTrial.Proofs.Pass.Calls
import MergeTrial.Proofs.Pass.Signal
import MergeTrial.Proofs.Metrics.Policy
import MergeTrial.Proofs.Pass.Permits
import MergeTrial.Proofs.Metrics.Restriction
import MergeTrial.Proofs.Pass.Restriction
import MergeTrial.Proofs.Records.Restriction
import MergeTrial.Proofs.Tool.Discovery
import MergeTrial.Proofs.Metrics.Shards
import MergeTrial.Proofs.Pass.Cancellation
import MergeTrial.Proofs.Corpus.Overwriting
import MergeTrial.Proofs.Tool.Launching
import MergeTrial.Proofs.Records.Defects
import MergeTrial.Proofs.Records.Reading
import MergeTrial.Proofs.Marker
import MergeTrial.Proofs.Tool.Interpretation
import MergeTrial.Proofs.FileTree.Walking
import MergeTrial.Proofs.FileTree.Writing
import MergeTrial.Proofs.Tool.Scratch
import MergeTrial.Proofs.Tool.Calls
import MergeTrial.Proofs.Corpus.Ordering
import MergeTrial.Proofs.Records.Wording
import MergeTrial.Proofs.Tool.Substitution
import MergeTrial.Proofs.FileTree.Relisting
import MergeTrial.Proofs.Corpus.Defects
import MergeTrial.Proofs.Corpus.Precedence
import MergeTrial.Proofs.Corpus.Checks
import MergeTrial.Proofs.FileTree.Making
import MergeTrial.Proofs.FileTree.Saving
import MergeTrial.Proofs.CommandLine.Steps
import MergeTrial.Proofs.Settings.RoundTrip
import MergeTrial.Proofs.Settings.Saving
import MergeTrial.Proofs.CommandLine.Startup
import MergeTrial.Proofs.CommandLine.Init
import MergeTrial.Proofs.Diff.Hunks
import MergeTrial.Proofs.Diff.Lines
import MergeTrial.Proofs.Diff.Reading
import MergeTrial.Proofs.Diff.Patching
import MergeTrial.Proofs.Diff.Shortest
import MergeTrial.Proofs.Artifacts.Layout
import MergeTrial.Proofs.FileTree.Below
import MergeTrial.Proofs.Artifacts.Writing
import MergeTrial.Proofs.Metrics.Buckets
import MergeTrial.Proofs.Report.Text
import MergeTrial.Proofs.FileTree.Sparing
import MergeTrial.Proofs.Pass.Effectful
import MergeTrial.Proofs.CommandLine.Logging
import MergeTrial.Proofs.CommandLine.Running
import MergeTrial.Proofs.CommandLine.DryRun
import MergeTrial.Proofs.Tool.Accounts
import MergeTrial.Proofs.Text.Column
