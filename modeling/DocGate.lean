import DocGate.CommandLine.Basic
import DocGate.CommandLine.Reader
import DocGate.CommandLine.Usage
import DocGate.Config.Basic
import DocGate.Config.Loading
import DocGate.Config.Reader
import DocGate.DocComment
import DocGate.FunctionUnit
import DocGate.Glob.Matching
import DocGate.Glob.Reader
import DocGate.Glob.Token
import DocGate.Grammar.Machine
import DocGate.Grammar.ParseTree
import DocGate.Grammar.Rule
import DocGate.Grammar.Source
import DocGate.Grammar.Walk
import DocGate.IgnoreFilter
import DocGate.Json.Basic
import DocGate.Json.Reader
import DocGate.Json.Writer
import DocGate.Language.Basic
import DocGate.Language.Registry
import DocGate.Main
import DocGate.Number.Binary64
import DocGate.Number.Decimal
import DocGate.Number.Integer64
import DocGate.Number.Shortest
import DocGate.Number.Spelling
import DocGate.Outline.Basic
import DocGate.Outline.Lowering
import DocGate.Outline.Score
import DocGate.Path
import DocGate.Problem
import DocGate.Python.Grammar
import DocGate.Python.Lexeme
import DocGate.Python.Units
import DocGate.Report.Basic
import DocGate.Report.Format
import DocGate.Report.Notice
import DocGate.Report.Painted
import DocGate.Report.Structured
import DocGate.Report.Text
import DocGate.Repository
import DocGate.Run
import DocGate.Scanner
import DocGate.Script.Grammar
import DocGate.Script.Lexeme
import DocGate.Script.Rules.Basic
import DocGate.Script.Rules.Expressions
import DocGate.Script.Rules.Statements
import DocGate.Script.Rules.Types
import DocGate.Script.Units
import DocGate.Severity
import DocGate.Text.Blank
import DocGate.Text.Identifier
import DocGate.Text.Lines
import DocGate.Text.Utf8
import DocGate.Toml.Basic
import DocGate.Toml.Reader
import DocGate.Toml.Scalar
import DocGate.Workspace.Basic
import DocGate.Workspace.Edit
import DocGate.Workspace.Node
import DocGate.Workspace.Walk
import DocGate.Proofs.Grammar.Preorder
import DocGate.Proofs.Grammar.Walk
import DocGate.Proofs.Grammar.RowOrder
import DocGate.Proofs.Grammar.Cursor
import DocGate.Proofs.Grammar.MachineOrder
import DocGate.Proofs.Grammar.Placement
import DocGate.Proofs.Grammar.Memory
import DocGate.Proofs.Python.Scanning
import DocGate.Proofs.Script.Scanning
import DocGate.Proofs.Script.Placement
import DocGate.Proofs.Outline.Enclosing
import DocGate.Proofs.Outline.ExactScore
import DocGate.Proofs.Outline.Lowering
import DocGate.Proofs.Outline.TreeWeight
import DocGate.Proofs.Outline.UnitScore
import DocGate.Proofs.Outline.Regrouping
import DocGate.Proofs.Outline.Nesting
import DocGate.Proofs.Outline.Shape
import DocGate.Proofs.Path.Location
import DocGate.Proofs.Path.Join
import DocGate.Proofs.Workspace.Tree
import DocGate.Proofs.Workspace.Walk
import DocGate.Proofs.Config.PatternAgreement
import DocGate.Proofs.Repository.Snapshot
import DocGate.Proofs.Repository.Staged
import DocGate.Proofs.Report.Totals
import DocGate.Proofs.Workspace.Resolution
import DocGate.Proofs.Language.Registry
import DocGate.Proofs.Scanner.Reports
import DocGate.Proofs.Run.ExitCode
import DocGate.Proofs.Scanner.StagedAgreement
import DocGate.Proofs.Scanner.Isolation
import DocGate.Proofs.IgnoreFilter.LiteralNames
import DocGate.Proofs.IgnoreFilter.Patterns
import DocGate.Proofs.Scanner.Narrowing
import DocGate.Proofs.Scanner.Threshold
import DocGate.Proofs.Run.Settings
import DocGate.Proofs.Run.Threshold
import DocGate.Proofs.Json.Grammar
import DocGate.Proofs.Json.Reading
import DocGate.Proofs.Number.Spelling
import DocGate.Proofs.Report.Colours
import DocGate.Proofs.Report.RoundTrip
import DocGate.Proofs.DocComment.Search
import DocGate.Proofs.DocComment.Block
import DocGate.Proofs.Report.Agreement
import DocGate.Proofs.Language.Declarations
import DocGate.Proofs.Path.Display
import DocGate.Proofs.Language.Selection
import DocGate.Proofs.Language.Ownership
import DocGate.Proofs.Report.Columns
import DocGate.Proofs.Text.Encoding
import DocGate.Proofs.Text.Decoding
import DocGate.Proofs.Text.LineEnds
import DocGate.Proofs.Text.Rows
import DocGate.Proofs.Language.Rows
import DocGate.Proofs.Scanner.SourceText
