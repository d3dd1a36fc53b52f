import DocSchema.Calendar.Date
import DocSchema.Calendar.Moment
import DocSchema.Calendar.Reader
import DocSchema.Classification
import DocSchema.CommandLine.Arguments
import DocSchema.CommandLine.Execution
import DocSchema.CommandLine.Help
import DocSchema.CommandLine.Needs
import DocSchema.CommandLine.Request
import DocSchema.Config.Basic
import DocSchema.Config.Fault
import DocSchema.Config.File
import DocSchema.Config.Reader
import DocSchema.Config.Substitution
import DocSchema.Config.Template
import DocSchema.ExtendedJson.DateText
import DocSchema.ExtendedJson.Fault
import DocSchema.ExtendedJson.Reader
import DocSchema.ExtendedJson.Wrapper
import DocSchema.Extraction.Sample
import DocSchema.Extraction.Walk
import DocSchema.Files.Path
import DocSchema.Files.Tree
import DocSchema.Introspection
import DocSchema.Introspection.Batch
import DocSchema.JsonValue.Basic
import DocSchema.JsonValue.Printer
import DocSchema.JsonValue.Reader
import DocSchema.Main
import DocSchema.Naming
import DocSchema.Nesting
import DocSchema.Number.Binary64
import DocSchema.Number.Decimal
import DocSchema.Number.Integer
import DocSchema.Number.Loose
import DocSchema.Number.Numeral
import DocSchema.Number.Power
import DocSchema.Number.Shortest
import DocSchema.Number.WideDecimal
import DocSchema.Path
import DocSchema.Proofs.Extraction.DistinctKeys
import DocSchema.Proofs.Extraction.Origin
import DocSchema.Proofs.Extraction.Paths
import DocSchema.Proofs.Extraction.Place
import DocSchema.Proofs.Extraction.PlainKey
import DocSchema.Proofs.Extraction.Rearrangement
import DocSchema.Proofs.Extraction.Regular
import DocSchema.Proofs.Extraction.Visible
import DocSchema.Proofs.Merge.Agreement
import DocSchema.Proofs.Merge.Event
import DocSchema.Proofs.Merge.Frame
import DocSchema.Proofs.Merge.History
import DocSchema.Proofs.Merge.Replay
import DocSchema.Proofs.Merge.Separation
import DocSchema.Proofs.Merge.Tally
import DocSchema.Proofs.Merge.Trace
import DocSchema.Proofs.Sampling.Course
import DocSchema.Proofs.Sampling.Coverage
import DocSchema.Proofs.Sampling.Drawing
import DocSchema.Proofs.Sampling.StopRule
import DocSchema.Proofs.Sampling.Threads
import DocSchema.Proofs.Sampling.Turn
import DocSchema.Proofs.Schema.Conformance
import DocSchema.Proofs.Schema.Evolution
import DocSchema.Proofs.Schema.Exactness
import DocSchema.Proofs.Schema.Fields
import DocSchema.Proofs.Schema.Graph
import DocSchema.Proofs.Schema.OrderIndependence
import DocSchema.Proofs.Schema.Repetition
import DocSchema.Proofs.Value.Proper
import DocSchema.Raw.Basic
import DocSchema.Raw.Equality
import DocSchema.Raw.Misuse
import DocSchema.Raw.Number
import DocSchema.Raw.Order
import DocSchema.Raw.Show
import DocSchema.Report
import DocSchema.Sampling.Adaptive
import DocSchema.Sampling.Batch
import DocSchema.Sampling.Metrics
import DocSchema.Sampling.Notice
import DocSchema.Sampling.Progress
import DocSchema.Sampling.Run
import DocSchema.Sampling.Store
import DocSchema.Schema.Accumulator
import DocSchema.Schema.Build
import DocSchema.Schema.Definition
import DocSchema.Schema.Merge
import DocSchema.Schema.Output
import DocSchema.Schema.Reader
import DocSchema.SemanticType
import DocSchema.Settings.Extraction
import DocSchema.Settings.Fault
import DocSchema.Settings.Sampling
import DocSchema.Source.Basic
import DocSchema.Source.Database
import DocSchema.Source.Directory
import DocSchema.Source.Fault
import DocSchema.Source.Memory
import DocSchema.Source.Randomness
import DocSchema.Source.Registry
import DocSchema.Table
import DocSchema.Text.Base64
import DocSchema.Text.Blank
import DocSchema.Text.CharSet
import DocSchema.Text.Digit
import DocSchema.Text.Half
import DocSchema.Text.Hex
import DocSchema.Text.Lines
import DocSchema.Text.Lowercase
import DocSchema.Text.Printable
import DocSchema.Text.Quoted
import DocSchema.Text.Search
import DocSchema.Text.Utf8
import DocSchema.Text.Uuid
import DocSchema.Value.Basic
import DocSchema.Value.Conversion
import DocSchema.Value.Fault
import DocSchema.Value.Kind
import DocSchema.Yaml.BlockText
import DocSchema.Yaml.Cursor
import DocSchema.Yaml.Fault
import DocSchema.Yaml.Node
import DocSchema.Yaml.PlainText
import DocSchema.Yaml.Property
import DocSchema.Yaml.QuotedText
import DocSchema.Yaml.Reader
import DocSchema.Yaml.Scalar
import DocSchema.Yaml.Tag
import DocSchema.Yaml.Token
import DocSchema.Proofs.Sampling.Skipping
import DocSchema.Proofs.Schema.Alike
import DocSchema.Proofs.Schema.Discovery
import DocSchema.Proofs.Schema.Multiplicity
import DocSchema.Proofs.Source.Passes
import DocSchema.Proofs.Merge.Alignment
import DocSchema.Proofs.Schema.Sharing
import DocSchema.Proofs.Sampling.Interruption
import DocSchema.Proofs.Introspection.Dialogue
import DocSchema.Proofs.Introspection.Batch
import DocSchema.Proofs.Introspection.Pool
import DocSchema.Proofs.Sampling.Accounting
import DocSchema.Proofs.Raw.Keys
import DocSchema.Proofs.Source.Draws
import DocSchema.Proofs.Number.Range
import DocSchema.Proofs.Sampling.Failure
import DocSchema.Proofs.Sampling.Cancellation
import DocSchema.Proofs.Sampling.Memory
import DocSchema.Proofs.Introspection.Containment
import DocSchema.Proofs.Merge.Registry
import DocSchema.Proofs.Sampling.Atomicity
import DocSchema.Proofs.Sampling.Budget
import DocSchema.Proofs.Merge.LowercaseKeys
import DocSchema.Proofs.Extraction.Trail
import DocSchema.Proofs.Extraction.Views
import DocSchema.Proofs.Extraction.Limits
import DocSchema.Proofs.Number.DecimalText
import DocSchema.Proofs.Value.Shape
import DocSchema.Proofs.Value.Escape
import DocSchema.Proofs.Settings.Reading
import DocSchema.Proofs.Config.Reading
import DocSchema.Proofs.Config.Layers
import DocSchema.Proofs.Config.Accepted
import DocSchema.Proofs.Naming.Words
import DocSchema.Proofs.Merge.Consistency
import DocSchema.Proofs.Config.Substitution
import DocSchema.Proofs.Config.Escape
