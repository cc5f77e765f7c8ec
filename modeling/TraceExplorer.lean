import TraceExplorer.Calendar.Civil
import TraceExplorer.Calendar.Stamp
import TraceExplorer.Calendar.ZoneText
import TraceExplorer.Cli.Arguments
import TraceExplorer.Cli.CommandLine
import TraceExplorer.Cli.Commands
import TraceExplorer.Cli.Console
import TraceExplorer.Cli.Program
import TraceExplorer.Config.Basic
import TraceExplorer.Config.Dotenv
import TraceExplorer.Config.Search
import TraceExplorer.Error
import TraceExplorer.Failure
import TraceExplorer.Host.Basic
import TraceExplorer.Host.Path
import TraceExplorer.Json.Reader
import TraceExplorer.Json.Value
import TraceExplorer.Json.Writer
import TraceExplorer.Main
import TraceExplorer.Number.Decimal
import TraceExplorer.Number.Double
import TraceExplorer.Number.Numeral
import TraceExplorer.Number.Quantity
import TraceExplorer.Number.Rounding
import TraceExplorer.Number.Scalar
import TraceExplorer.Proofs.Calendar.Gregorian
import TraceExplorer.Proofs.Calendar.Reading
import TraceExplorer.Proofs.Cli.ServiceFilter
import TraceExplorer.Proofs.Cli.TreeRows
import TraceExplorer.Proofs.Config.Lines
import TraceExplorer.Proofs.Config.Refusals
import TraceExplorer.Proofs.Config.Sources
import TraceExplorer.Proofs.Config.Upward
import TraceExplorer.Proofs.Host.Reading
import TraceExplorer.Proofs.Json.Display
import TraceExplorer.Proofs.Json.Limits
import TraceExplorer.Proofs.Json.Reading
import TraceExplorer.Proofs.Json.Taking
import TraceExplorer.Proofs.Json.Yields
import TraceExplorer.Proofs.KeyedList
import TraceExplorer.Proofs.Number.Hexadecimal
import TraceExplorer.Proofs.Number.Monotone
import TraceExplorer.Proofs.Number.Rounding
import TraceExplorer.Proofs.Positions
import TraceExplorer.Proofs.Reordering
import TraceExplorer.Proofs.Schema.Documents
import TraceExplorer.Proofs.Schema.Files
import TraceExplorer.Proofs.Schema.HexPattern
import TraceExplorer.Proofs.Schema.LineNumbers
import TraceExplorer.Proofs.Schema.Lines
import TraceExplorer.Proofs.Schema.Locality
import TraceExplorer.Proofs.Schema.Passing
import TraceExplorer.Proofs.Span.Admitted
import TraceExplorer.Proofs.Span.Faults
import TraceExplorer.Proofs.Span.HexSpelling
import TraceExplorer.Proofs.Span.Id
import TraceExplorer.Proofs.Span.Reading
import TraceExplorer.Proofs.Span.RoundTrip
import TraceExplorer.Proofs.Span.WellFormed
import TraceExplorer.Proofs.Span.Written
import TraceExplorer.Proofs.Success
import TraceExplorer.Proofs.Summary.Batch
import TraceExplorer.Proofs.Summary.Coverage
import TraceExplorer.Proofs.Summary.Extent
import TraceExplorer.Proofs.Summary.Filter
import TraceExplorer.Proofs.Summary.Isolation
import TraceExplorer.Proofs.Summary.Order
import TraceExplorer.Proofs.Summary.Percentage
import TraceExplorer.Proofs.Summary.Ranking
import TraceExplorer.Proofs.Summary.Reporting
import TraceExplorer.Proofs.Summary.Service
import TraceExplorer.Proofs.Summary.ServiceCount
import TraceExplorer.Proofs.Summary.ServiceIndex
import TraceExplorer.Proofs.Summary.Severity
import TraceExplorer.Proofs.Summary.Share
import TraceExplorer.Proofs.Summary.Trace
import TraceExplorer.Proofs.Summary.Verdict
import TraceExplorer.Proofs.Text.LineNumbers
import TraceExplorer.Proofs.Text.Lines
import TraceExplorer.Proofs.Text.Lower
import TraceExplorer.Proofs.Text.Trim
import TraceExplorer.Proofs.Timeline.Clipping
import TraceExplorer.Proofs.Timeline.Cover
import TraceExplorer.Proofs.Timeline.Rows
import TraceExplorer.Proofs.Timeline.Selection
import TraceExplorer.Proofs.Timeline.Session
import TraceExplorer.Proofs.Trace.Grouping
import TraceExplorer.Proofs.Trace.LineNumbers
import TraceExplorer.Proofs.Trace.Lines
import TraceExplorer.Proofs.Trace.Loading
import TraceExplorer.Proofs.Trace.Origin
import TraceExplorer.Proofs.Tree.Acyclic
import TraceExplorer.Proofs.Tree.Ancestry
import TraceExplorer.Proofs.Tree.Arrival
import TraceExplorer.Proofs.Tree.Build
import TraceExplorer.Proofs.Tree.Circles
import TraceExplorer.Proofs.Tree.Declared
import TraceExplorer.Proofs.Tree.EmptyParent
import TraceExplorer.Proofs.Tree.Forest
import TraceExplorer.Proofs.Tree.GroupIndex
import TraceExplorer.Proofs.Tree.Growth
import TraceExplorer.Proofs.Tree.Legs
import TraceExplorer.Proofs.Tree.Levels
import TraceExplorer.Proofs.Tree.Order
import TraceExplorer.Proofs.Tree.ParentLinks
import TraceExplorer.Proofs.Tree.Reports
import TraceExplorer.Proofs.Tree.Services
import TraceExplorer.Proofs.Tree.Siblings
import TraceExplorer.Proofs.Tree.Subtrees
import TraceExplorer.Proofs.Tree.Walk
import TraceExplorer.Proofs.Visibility.Balance
import TraceExplorer.Proofs.Visibility.Change
import TraceExplorer.Proofs.Visibility.Collapse
import TraceExplorer.Proofs.Visibility.Descent
import TraceExplorer.Proofs.Visibility.Expand
import TraceExplorer.Proofs.Visibility.Folding
import TraceExplorer.Proofs.Visibility.Frame
import TraceExplorer.Proofs.Visibility.InPlace
import TraceExplorer.Proofs.Visibility.Layout
import TraceExplorer.Proofs.Visibility.Lost
import TraceExplorer.Proofs.Visibility.Outline
import TraceExplorer.Proofs.Visibility.Report
import TraceExplorer.Proofs.Visibility.Run
import TraceExplorer.Proofs.Visibility.Shown
import TraceExplorer.Proofs.Visibility.Tidy
import TraceExplorer.Proofs.Visibility.Top
import TraceExplorer.Proofs.Visibility.Unfolded
import TraceExplorer.Proofs.Visibility.View
import TraceExplorer.Proofs.Visibility.Withdrawal
import TraceExplorer.Proofs.Yaml.Texts
import TraceExplorer.Schema.Basic
import TraceExplorer.Schema.SpanSchema
import TraceExplorer.Schema.Validation
import TraceExplorer.Span.Basic
import TraceExplorer.Span.Id
import TraceExplorer.Span.Reader
import TraceExplorer.Span.Writer
import TraceExplorer.Summary.Batch
import TraceExplorer.Summary.Duration
import TraceExplorer.Summary.Ranking
import TraceExplorer.Summary.Service
import TraceExplorer.Summary.Severity
import TraceExplorer.Summary.Trace
import TraceExplorer.Text.Base64
import TraceExplorer.Text.Basic
import TraceExplorer.Text.Blank
import TraceExplorer.Text.Case
import TraceExplorer.Text.CaseMap
import TraceExplorer.Text.Cased
import TraceExplorer.Text.CodeRange
import TraceExplorer.Text.DecimalDigit
import TraceExplorer.Text.Lines
import TraceExplorer.Text.Printable
import TraceExplorer.Text.Quoted
import TraceExplorer.Timeline.Mapper
import TraceExplorer.Timeline.Markers
import TraceExplorer.Timeline.Row
import TraceExplorer.Timeline.Selection
import TraceExplorer.Timeline.Zoom
import TraceExplorer.Trace.Basic
import TraceExplorer.Trace.Extent
import TraceExplorer.Trace.Loader
import TraceExplorer.Tree.Basic
import TraceExplorer.Tree.Group
import TraceExplorer.Tree.Parents
import TraceExplorer.Tree.TraceTree
import TraceExplorer.Visibility.RefCount
import TraceExplorer.Visibility.State
import TraceExplorer.Yaml.Cursor
import TraceExplorer.Yaml.Document
import TraceExplorer.Yaml.Graph
import TraceExplorer.Yaml.Merge
import TraceExplorer.Yaml.Plain
import TraceExplorer.Yaml.ScalarText
import TraceExplorer.Yaml.ScalarValue
import TraceExplorer.Yaml.SetOrder
import TraceExplorer.Yaml.Shape
import TraceExplorer.Yaml.Tag
import TraceExplorer.Yaml.Token
import TraceExplorer.Yaml.Value
