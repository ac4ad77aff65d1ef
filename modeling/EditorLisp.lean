import EditorLisp.CommandLine
import EditorLisp.Condition
import EditorLisp.Config
import EditorLisp.Document.Buffer
import EditorLisp.Document.GapText
import EditorLisp.Document.Windows
import EditorLisp.Document.Workspace
import EditorLisp.Evaluation.Arguments
import EditorLisp.Evaluation.Basic
import EditorLisp.Evaluation.Function
import EditorLisp.Evaluation.Interp
import EditorLisp.Evaluation.Variables
import EditorLisp.Event
import EditorLisp.Files
import EditorLisp.Flow
import EditorLisp.Format
import EditorLisp.Forms
import EditorLisp.Forms.Control
import EditorLisp.Forms.Definition
import EditorLisp.Forms.Loop
import EditorLisp.Forms.Mode
import EditorLisp.Forms.Pattern
import EditorLisp.Forms.Place
import EditorLisp.Forms.Quote
import EditorLisp.Grid
import EditorLisp.Host
import EditorLisp.Interpreter
import EditorLisp.Keymap
import EditorLisp.Main
import EditorLisp.MatchData
import EditorLisp.Number.Double
import EditorLisp.Number.Fixnum
import EditorLisp.Number.Literal
import EditorLisp.Number.Nearest
import EditorLisp.Number.Shortest
import EditorLisp.Primitives
import EditorLisp.Primitives.Arithmetic
import EditorLisp.Primitives.Buffer
import EditorLisp.Primitives.Command
import EditorLisp.Primitives.Editing
import EditorLisp.Primitives.File
import EditorLisp.Primitives.Grid
import EditorLisp.Primitives.HigherOrder
import EditorLisp.Primitives.Hook
import EditorLisp.Primitives.Inert
import EditorLisp.Primitives.Keymap
import EditorLisp.Primitives.List
import EditorLisp.Primitives.Load
import EditorLisp.Primitives.Motion
import EditorLisp.Primitives.Report
import EditorLisp.Primitives.Search
import EditorLisp.Primitives.Sequence
import EditorLisp.Primitives.String
import EditorLisp.Primitives.Symbol
import EditorLisp.Primitives.Time
import EditorLisp.Primitives.Timer
import EditorLisp.Primitives.Window
import EditorLisp.Program
import EditorLisp.Proofs.Document.BlankLines
import EditorLisp.Proofs.Document.Cells
import EditorLisp.Proofs.Document.History
import EditorLisp.Proofs.Document.Layout
import EditorLisp.Proofs.Document.Lines
import EditorLisp.Proofs.Document.Modified
import EditorLisp.Proofs.Evaluation.Agrees
import EditorLisp.Proofs.Evaluation.Parameters
import EditorLisp.Proofs.Evaluation.Resolution
import EditorLisp.Proofs.Forms.Agrees
import EditorLisp.Proofs.Forms.Alias
import EditorLisp.Proofs.Forms.Binding
import EditorLisp.Proofs.Forms.Counting
import EditorLisp.Proofs.Forms.Immediate
import EditorLisp.Proofs.Forms.Matching
import EditorLisp.Proofs.Forms.Quotation
import EditorLisp.Proofs.Forms.Throw
import EditorLisp.Proofs.Forms.Update
import EditorLisp.Proofs.Forms.Verbatim
import EditorLisp.Proofs.Forms.Windows
import EditorLisp.Proofs.Input
import EditorLisp.Proofs.Keymap
import EditorLisp.Proofs.Levels
import EditorLisp.Proofs.Load.Require
import EditorLisp.Proofs.Parameter
import EditorLisp.Proofs.Primitives.Agrees
import EditorLisp.Proofs.Primitives.Arithmetic
import EditorLisp.Proofs.Primitives.Browse
import EditorLisp.Proofs.Primitives.Calendar
import EditorLisp.Proofs.Primitives.Checked
import EditorLisp.Proofs.Primitives.Columns
import EditorLisp.Proofs.Primitives.Directive
import EditorLisp.Proofs.Primitives.MatchData
import EditorLisp.Proofs.Primitives.Position
import EditorLisp.Proofs.Primitives.PropertyList
import EditorLisp.Proofs.Primitives.Rectangle
import EditorLisp.Proofs.Primitives.Refusal
import EditorLisp.Proofs.Primitives.Replace
import EditorLisp.Proofs.Primitives.Report
import EditorLisp.Proofs.Primitives.Reverse
import EditorLisp.Proofs.Primitives.Sort
import EditorLisp.Proofs.Primitives.Split
import EditorLisp.Proofs.Regexp.Notation
import EditorLisp.Proofs.Source.Comment
import EditorLisp.Proofs.Source.Names
import EditorLisp.Proofs.Source.Nesting
import EditorLisp.Proofs.Source.OneByOne
import EditorLisp.Proofs.Source.Pass
import EditorLisp.Proofs.Source.Place
import EditorLisp.Proofs.Source.TokenList
import EditorLisp.Proofs.Store.Environment
import EditorLisp.Proofs.Store.Equality
import EditorLisp.Proofs.Store.Lists
import EditorLisp.Proofs.Store.Printed
import EditorLisp.Proofs.Text.Offset
import EditorLisp.Proofs.Timer.Period
import EditorLisp.Regexp.Automaton
import EditorLisp.Regexp.Automaton.Program
import EditorLisp.Regexp.Automaton.Reader
import EditorLisp.Regexp.Automaton.Tree
import EditorLisp.Regexp.Engine
import EditorLisp.Regexp.Extended
import EditorLisp.Regexp.Look
import EditorLisp.Regexp.Token
import EditorLisp.Session
import EditorLisp.Source.Datum
import EditorLisp.Source.Expand
import EditorLisp.Source.Reader
import EditorLisp.Store.Basic
import EditorLisp.Store.Printer
import EditorLisp.Table
import EditorLisp.Text.Blank
import EditorLisp.Text.CaseTable
import EditorLisp.Text.CharClass
import EditorLisp.Text.Offset
import EditorLisp.Text.RangeTable
import EditorLisp.Timer
import EditorLisp.Value
