import EventAtlas.Analysis.Basic
import EventAtlas.Analysis.Discovery
import EventAtlas.Analysis.Log
import EventAtlas.Analysis.Units
import EventAtlas.CSharp.Name
import EventAtlas.CSharp.Scope
import EventAtlas.Command.Arguments
import EventAtlas.Command.LogFilter
import EventAtlas.Command.Process
import EventAtlas.Command.Run
import EventAtlas.Export.Cypher
import EventAtlas.Export.Format
import EventAtlas.Export.Json
import EventAtlas.Export.Markdown
import EventAtlas.Fact
import EventAtlas.Files.FileSystem
import EventAtlas.Files.Tree
import EventAtlas.IndicatorFile
import EventAtlas.Indicators
import EventAtlas.Json.Basic
import EventAtlas.Json.Parser
import EventAtlas.Json.Printer
import EventAtlas.Json.Record
import EventAtlas.Log
import EventAtlas.Lookback
import EventAtlas.Main
import EventAtlas.Module.Basic
import EventAtlas.Module.Dump
import EventAtlas.Module.Index
import EventAtlas.Module.Name
import EventAtlas.Module.Publications
import EventAtlas.Module.TypeGraph
import EventAtlas.Path
import EventAtlas.Proofs.Analysis.Schedule
import EventAtlas.Proofs.Files.Tree
import EventAtlas.Proofs.Module.Reachability
import EventAtlas.Proofs.Path
import EventAtlas.Proofs.Report.Sorting
import EventAtlas.Proofs.Text.Search
import EventAtlas.Recognizer
import EventAtlas.Report.Basic
import EventAtlas.Report.Correlation
import EventAtlas.Report.FlowGraph
import EventAtlas.Report.Json
import EventAtlas.Source.Consumptions
import EventAtlas.Source.Definitions
import EventAtlas.Source.Document
import EventAtlas.Source.Extraction
import EventAtlas.Source.LineView
import EventAtlas.Source.Publications
import EventAtlas.Source.Subscriptions
import EventAtlas.Source.Window
import EventAtlas.Text.Alphanumeric
import EventAtlas.Text.Blank
import EventAtlas.Text.Cased
import EventAtlas.Text.Digits
import EventAtlas.Text.Folding
import EventAtlas.Text.Lines
import EventAtlas.Text.Lowercase
import EventAtlas.Text.Ranges
import EventAtlas.Text.Search
import EventAtlas.Text.Word
import EventAtlas.Timestamp
import EventAtlas.Proofs.Files.Pruning
import EventAtlas.Proofs.Files.FileSystem
import EventAtlas.Proofs.Analysis.Discovery
import EventAtlas.Proofs.Analysis.Units
import EventAtlas.Proofs.Analysis.Removal
import EventAtlas.Proofs.Analysis.Isolation
import EventAtlas.Proofs.Timestamp
import EventAtlas.Proofs.Export.Quoting
import EventAtlas.Proofs.Report.FlowGraph
import EventAtlas.Proofs.Export.Cypher
import EventAtlas.Proofs.Export.Decoding
import EventAtlas.Proofs.Source.Lookahead
import EventAtlas.Proofs.Recognizer
import EventAtlas.Proofs.Source.Registration
import EventAtlas.Proofs.Report.Selection
import EventAtlas.Proofs.Analysis.Runs
import EventAtlas.Proofs.Analysis.Siblings
import EventAtlas.Proofs.Source.Extraction
import EventAtlas.Proofs.Analysis.Options
import EventAtlas.Proofs.CSharp.Name
import EventAtlas.Proofs.Report.Correlation
import EventAtlas.Proofs.Recognizer.Choice
import EventAtlas.Proofs.Source.Tokens
import EventAtlas.Proofs.Source.WellFormed
import EventAtlas.Proofs.Files.Growth
import EventAtlas.Proofs.Files.Writing
import EventAtlas.Proofs.Analysis.Growth
import EventAtlas.Proofs.Command.Run
import EventAtlas.Proofs.Report.Monotonicity
import EventAtlas.Proofs.Module.Tracing
import EventAtlas.Proofs.Json.RoundTrip
import EventAtlas.Proofs.Json.Record
import EventAtlas.Proofs.Module.Dump
import EventAtlas.Proofs.Export.Json
import EventAtlas.Proofs.Module.Index
import EventAtlas.Proofs.Report.Containment
import EventAtlas.Proofs.CSharp.DottedName
import EventAtlas.Proofs.Source.Tracing
import EventAtlas.Proofs.Report.Outline
import EventAtlas.Proofs.Report.Drafting
import EventAtlas.Proofs.Report.GraphShape
import EventAtlas.Proofs.Source.Handlers
import EventAtlas.Proofs.Source.Body
import EventAtlas.Proofs.Source.EventBody
import EventAtlas.Proofs.Report.SortKeys
import EventAtlas.Proofs.Analysis.Repositories
import EventAtlas.Proofs.IndicatorFile
import EventAtlas.Proofs.Source.PublishCalls
import EventAtlas.Proofs.Analysis.UnitFiles
import EventAtlas.Proofs.Module.GeneratedNames
import EventAtlas.Proofs.Export.Markdown
import EventAtlas.Proofs.Module.SimpleNames
import EventAtlas.Proofs.Source.Assignments
import EventAtlas.Proofs.CSharp.Words
import EventAtlas.Proofs.CSharp.Declarations
import EventAtlas.Proofs.CSharp.Methods
import EventAtlas.Proofs.CSharp.Scope
import EventAtlas.Proofs.Module.Attributes
import EventAtlas.Proofs.Source.Positions
import EventAtlas.Proofs.Source.Counting
