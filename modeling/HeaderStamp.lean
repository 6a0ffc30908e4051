import HeaderStamp.Main
import HeaderStamp.Report.Decode
import HeaderStamp.Proofs.Insertion.Preamble
import HeaderStamp.Proofs.Insertion.Outcome
import HeaderStamp.Proofs.Insertion.Splice
import HeaderStamp.Proofs.Insertion.Idempotence
import HeaderStamp.Proofs.Header.Characters
import HeaderStamp.Proofs.Insertion.SelfRecognition
import HeaderStamp.Proofs.Rules.Origin
import HeaderStamp.Proofs.FileTree.Resolution
import HeaderStamp.Proofs.Processing.Settling
import HeaderStamp.Proofs.FileTree.Rewriting
import HeaderStamp.Proofs.Text.Utf8
import HeaderStamp.Proofs.Processing.Batch
import HeaderStamp.Proofs.Processing.Sniffing
import HeaderStamp.Proofs.Processing.SecondRun
import HeaderStamp.Proofs.Header.Comments
import HeaderStamp.Proofs.Processing.Comments
import HeaderStamp.Proofs.Rules.Resolution
import HeaderStamp.Proofs.FileTree.Commuting
import HeaderStamp.Proofs.Processing.Independence
import HeaderStamp.Proofs.FileTree.Creation
import HeaderStamp.Proofs.Processing.CheckRun
import HeaderStamp.Proofs.Diff.Log
import HeaderStamp.Proofs.FileTree.Writing
import HeaderStamp.Proofs.Report.Categories
import HeaderStamp.Proofs.Processing.Tally
import HeaderStamp.Proofs.Processing.Ownership
import HeaderStamp.Proofs.CommandLine.Course
import HeaderStamp.Proofs.CommandLine.Quiet
import HeaderStamp.Proofs.CommandLine.Account
import HeaderStamp.Proofs.Attempts
import HeaderStamp.Proofs.Paths.Order
import HeaderStamp.Proofs.Glob.Patterns
import HeaderStamp.Proofs.Paths.Components
import HeaderStamp.Proofs.Collector.Union
import HeaderStamp.Proofs.Collector.Vendored
import HeaderStamp.Proofs.FileTree.Leading
import HeaderStamp.Proofs.Paths.Route
import HeaderStamp.Proofs.FileTree.Lawful
import HeaderStamp.Proofs.FileTree.Entry
import HeaderStamp.Proofs.FileTree.Walking
import HeaderStamp.Proofs.Collector.Repetition
import HeaderStamp.Proofs.Collector.Spelling
import HeaderStamp.Proofs.FileTree.Upkeep
import HeaderStamp.Proofs.FileTree.Way
import HeaderStamp.Proofs.FileTree.Coverage
import HeaderStamp.Proofs.FileTree.WayBack
import HeaderStamp.Proofs.Rules.Ascent
import HeaderStamp.Proofs.Rules.Effect
import HeaderStamp.Proofs.Rules.Refusal
import HeaderStamp.Proofs.Insertion.Placement
import HeaderStamp.Proofs.Processing.Detection
import HeaderStamp.Proofs.Header.Slots
import HeaderStamp.Proofs.Header.Words
import HeaderStamp.Proofs.Decimal.Digits
import HeaderStamp.Proofs.Report.Table
import HeaderStamp.Proofs.Processing.SavedDiff
import HeaderStamp.Proofs.Json.Strings
import HeaderStamp.Proofs.Decimal.Notation
import HeaderStamp.Proofs.Json.Numbers
import HeaderStamp.Proofs.Json.RoundTrip
import HeaderStamp.Proofs.Report.ReadBack
import HeaderStamp.Proofs.Config.Overrides
