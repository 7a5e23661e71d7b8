import SampleHarvest.Calendar.Date
import SampleHarvest.Calendar.Instant
import SampleHarvest.Calendar.PublicationTime
import SampleHarvest.CommandLine.Answer
import SampleHarvest.CommandLine.Arguments
import SampleHarvest.CommandLine.Command
import SampleHarvest.CommandLine.Extract
import SampleHarvest.CommandLine.Failure
import SampleHarvest.CommandLine.Invocation
import SampleHarvest.CommandLine.Ledger
import SampleHarvest.CommandLine.Run
import SampleHarvest.CommandLine.Split
import SampleHarvest.Config.Basic
import SampleHarvest.Config.Document
import SampleHarvest.Config.File
import SampleHarvest.Csv
import SampleHarvest.Dialect.Basic
import SampleHarvest.Dialect.Rules
import SampleHarvest.Disk.Basic
import SampleHarvest.Disk.Change
import SampleHarvest.Disk.Node
import SampleHarvest.Extraction
import SampleHarvest.Failure
import SampleHarvest.Harvest.Basic
import SampleHarvest.Harvest.Discovery
import SampleHarvest.Harvest.Publication
import SampleHarvest.Json
import SampleHarvest.Ledger.Address
import SampleHarvest.Ledger.Basic
import SampleHarvest.Ledger.Export
import SampleHarvest.Ledger.File
import SampleHarvest.Ledger.Stored
import SampleHarvest.Main
import SampleHarvest.Markdown
import SampleHarvest.Path.Basic
import SampleHarvest.Proofs.Calendar.Days
import SampleHarvest.Proofs.Calendar.Reading
import SampleHarvest.Proofs.Calendar.Written
import SampleHarvest.Proofs.Config.RoundTrip
import SampleHarvest.Proofs.Csv.Format
import SampleHarvest.Proofs.Dialect.Lines
import SampleHarvest.Proofs.Disk.Change
import SampleHarvest.Proofs.Disk.Confinement
import SampleHarvest.Proofs.Disk.Look
import SampleHarvest.Proofs.Disk.Output
import SampleHarvest.Proofs.Disk.Repetition
import SampleHarvest.Proofs.Disk.Walk
import SampleHarvest.Proofs.Disk.Write
import SampleHarvest.Proofs.Extraction.Consistency
import SampleHarvest.Proofs.Extraction.History
import SampleHarvest.Proofs.Extraction.Preview
import SampleHarvest.Proofs.Extraction.Repetition
import SampleHarvest.Proofs.Extraction.Session
import SampleHarvest.Proofs.Extraction.Stages
import SampleHarvest.Proofs.Harvest.Accounting
import SampleHarvest.Proofs.Harvest.Artifacts
import SampleHarvest.Proofs.Harvest.Before
import SampleHarvest.Proofs.Harvest.Candidates
import SampleHarvest.Proofs.Harvest.Containment
import SampleHarvest.Proofs.Harvest.Descent
import SampleHarvest.Proofs.Harvest.Discovery
import SampleHarvest.Proofs.Harvest.Files
import SampleHarvest.Proofs.Harvest.Markers
import SampleHarvest.Proofs.Harvest.Order
import SampleHarvest.Proofs.Harvest.Placement
import SampleHarvest.Proofs.Harvest.Publication
import SampleHarvest.Proofs.Harvest.Readable
import SampleHarvest.Proofs.Harvest.Scheduling
import SampleHarvest.Proofs.Harvest.Search
import SampleHarvest.Proofs.Harvest.Stability
import SampleHarvest.Proofs.Ledger.Answers
import SampleHarvest.Proofs.Ledger.Catalog
import SampleHarvest.Proofs.Ledger.Export
import SampleHarvest.Proofs.Ledger.Independence
import SampleHarvest.Proofs.Ledger.Integrity
import SampleHarvest.Proofs.Ledger.Opening
import SampleHarvest.Proofs.Ledger.Origin
import SampleHarvest.Proofs.Ledger.Publication
import SampleHarvest.Proofs.Ledger.Recording
import SampleHarvest.Proofs.Ledger.Snapshot
import SampleHarvest.Proofs.Ledger.Traces
import SampleHarvest.Proofs.Ledger.Transaction
import SampleHarvest.Proofs.Markdown.Block
import SampleHarvest.Proofs.Markdown.Link
import SampleHarvest.Proofs.Markdown.Segment
import SampleHarvest.Proofs.Path.Join
import SampleHarvest.Proofs.Path.Location
import SampleHarvest.Proofs.Path.Order
import SampleHarvest.Proofs.Sample.Arrangement
import SampleHarvest.Proofs.Sample.Examples
import SampleHarvest.Proofs.Sample.Header
import SampleHarvest.Proofs.Sample.Likeness
import SampleHarvest.Proofs.Sample.LineEnds
import SampleHarvest.Proofs.Sample.Locality
import SampleHarvest.Proofs.Sample.Naming
import SampleHarvest.Proofs.Sample.Opening
import SampleHarvest.Proofs.Sample.Partition
import SampleHarvest.Proofs.Sample.Reextraction
import SampleHarvest.Proofs.Sample.References
import SampleHarvest.Proofs.Sample.Renaming
import SampleHarvest.Proofs.Sample.Routine
import SampleHarvest.Proofs.Sample.Scan
import SampleHarvest.Proofs.Sample.Sources
import SampleHarvest.Proofs.Sample.Step
import SampleHarvest.Proofs.Sample.Wrapping
import SampleHarvest.Proofs.Text.Decimal
import SampleHarvest.Proofs.Text.Expansion
import SampleHarvest.Proofs.Text.LineEnds
import SampleHarvest.Proofs.Text.Lines
import SampleHarvest.Proofs.Text.Occurrences
import SampleHarvest.Proofs.Text.Order
import SampleHarvest.Proofs.Text.Trim
import SampleHarvest.Proofs.Text.Utf8
import SampleHarvest.Proofs.Toml.Document
import SampleHarvest.Proofs.Toml.Number
import SampleHarvest.Proofs.Toml.Quoted
import SampleHarvest.Proofs.Toml.Written
import SampleHarvest.Proofs.Validation.Placeholders
import SampleHarvest.Proofs.Validation.Verdict
import SampleHarvest.Release.Basic
import SampleHarvest.Sample.Example
import SampleHarvest.Sample.Marker
import SampleHarvest.Sample.Segmentation
import SampleHarvest.Sample.Standalone
import SampleHarvest.Sample.Unit
import SampleHarvest.Shell.Arithmetic
import SampleHarvest.Shell.Builtin.Basic
import SampleHarvest.Shell.Builtin.Check
import SampleHarvest.Shell.Builtin.Flow
import SampleHarvest.Shell.Builtin.Folder
import SampleHarvest.Shell.Builtin.Variables
import SampleHarvest.Shell.CharacterSet
import SampleHarvest.Shell.Check
import SampleHarvest.Shell.Edit.Basic
import SampleHarvest.Shell.Edit.Parse
import SampleHarvest.Shell.Edit.Run
import SampleHarvest.Shell.Expansion
import SampleHarvest.Shell.Format
import SampleHarvest.Shell.Fraction
import SampleHarvest.Shell.Grammar
import SampleHarvest.Shell.Installation
import SampleHarvest.Shell.Machine
import SampleHarvest.Shell.Pattern
import SampleHarvest.Shell.Process
import SampleHarvest.Shell.Program
import SampleHarvest.Shell.Record.Parse
import SampleHarvest.Shell.Record.Run
import SampleHarvest.Shell.Record.Session
import SampleHarvest.Shell.Record.Syntax
import SampleHarvest.Shell.Record.Token
import SampleHarvest.Shell.Record.Value
import SampleHarvest.Shell.Redirection
import SampleHarvest.Shell.Regex.Basic
import SampleHarvest.Shell.Regex.Parse
import SampleHarvest.Shell.Run
import SampleHarvest.Shell.Search
import SampleHarvest.Shell.Show
import SampleHarvest.Shell.Signal
import SampleHarvest.Shell.Syntax
import SampleHarvest.Shell.Token
import SampleHarvest.Shell.Utilities
import SampleHarvest.Shell.Utility.Basic
import SampleHarvest.Shell.Utility.Columns
import SampleHarvest.Shell.Utility.Compare
import SampleHarvest.Shell.Utility.Dump
import SampleHarvest.Shell.Utility.Edit
import SampleHarvest.Shell.Utility.Expression
import SampleHarvest.Shell.Utility.Files
import SampleHarvest.Shell.Utility.Find
import SampleHarvest.Shell.Utility.Grep
import SampleHarvest.Shell.Utility.Listing
import SampleHarvest.Shell.Utility.Reading
import SampleHarvest.Shell.Utility.Record
import SampleHarvest.Shell.Utility.Simple
import SampleHarvest.Shell.Utility.Sort
import SampleHarvest.Shell.Utility.Starting
import SampleHarvest.Shell.Utility.Translate
import SampleHarvest.Target
import SampleHarvest.Text.Basic
import SampleHarvest.Text.Decimal
import SampleHarvest.Text.Lines
import SampleHarvest.Text.Raw
import SampleHarvest.Text.Utf8
import SampleHarvest.Text.Visible
import SampleHarvest.Toml.Binary
import SampleHarvest.Toml.Grammar
import SampleHarvest.Toml.Place
import SampleHarvest.Toml.Quoted
import SampleHarvest.Toml.Reader
import SampleHarvest.Toml.Scalar
import SampleHarvest.Toml.Value
import SampleHarvest.Toml.Written
import SampleHarvest.Validation.Basic
import SampleHarvest.Validation.Program
import SampleHarvest.Validation.System
