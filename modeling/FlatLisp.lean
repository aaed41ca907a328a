import FlatLisp.Builtin
import FlatLisp.Builtin.Arithmetic
import FlatLisp.Builtin.Call
import FlatLisp.Builtin.Lists
import FlatLisp.Builtin.Operation
import FlatLisp.Builtin.Texts
import FlatLisp.CommandLine
import FlatLisp.Environment
import FlatLisp.Environment.Handles
import FlatLisp.Error
import FlatLisp.Eval
import FlatLisp.Form
import FlatLisp.Form.Outline
import FlatLisp.Form.Printer
import FlatLisp.Form.Reader
import FlatLisp.Load
import FlatLisp.Number.Basic
import FlatLisp.Number.Decimal
import FlatLisp.Number.Integer
import FlatLisp.Number.Layout
import FlatLisp.Number.Rounding
import FlatLisp.Number.Shortest
import FlatLisp.Proofs.Concatenation
import FlatLisp.Proofs.Division
import FlatLisp.Proofs.Fuel
import FlatLisp.Proofs.Grammar
import FlatLisp.Proofs.Joining
import FlatLisp.Proofs.Lexing
import FlatLisp.Proofs.Literals
import FlatLisp.Proofs.Moments
import FlatLisp.Proofs.Numerals
import FlatLisp.Proofs.RoundTrip
import FlatLisp.Proofs.Rounding
import FlatLisp.Proofs.Shortest
import FlatLisp.Proofs.Stepping
import FlatLisp.Reading
import FlatLisp.Repl
import FlatLisp.Session
import FlatLisp.Template
import FlatLisp.Text.Backspace
import FlatLisp.Text.Blank
import FlatLisp.Text.Case
import FlatLisp.Text.CaseTable
import FlatLisp.Text.Cluster
import FlatLisp.Text.ClusterTable
import FlatLisp.Text.CodeRange
import FlatLisp.Text.Quoted
import FlatLisp.Text.Search
import FlatLisp.Text.Utf8
import FlatLisp.Token
import FlatLisp.Token.Lexer
import FlatLisp.Value
import FlatLisp.Value.Chain
import FlatLisp.Value.Equality
import FlatLisp.Main
import FlatLisp.Proofs.Holdings
import FlatLisp.Proofs.Code
import FlatLisp.Proofs.WriteFrame
import FlatLisp.Proofs.UnreadNames
import FlatLisp.Proofs.Equality
import FlatLisp.Proofs.Identity
import FlatLisp.Proofs.Buffers
import FlatLisp.Proofs.Interactive
import FlatLisp.Proofs.Reload
import FlatLisp.Proofs.NoTrap
import FlatLisp.Proofs.Running
import FlatLisp.Proofs.OpenDepth
import FlatLisp.Proofs.Loops
import FlatLisp.Proofs.StringLiterals
import FlatLisp.Proofs.NumberLiterals
import FlatLisp.Proofs.Completion
import FlatLisp.Proofs.Integers
import FlatLisp.Proofs.Chains
import FlatLisp.Proofs.Searching
import FlatLisp.Proofs.Filling
import FlatLisp.Proofs.Placeholders
import FlatLisp.Proofs.Verbatim
import FlatLisp.Proofs.Preorder
import FlatLisp.Proofs.Statements
import FlatLisp.Proofs.Drawing
import FlatLisp.Proofs.DotLanguage
import FlatLisp.Proofs.Labels
import FlatLisp.Proofs.FirstFault
import FlatLisp.Proofs.NextForm
import FlatLisp.Proofs.Cursor
import FlatLisp.Proofs.LastWrite
import FlatLisp.Proofs.WriteTrace
import FlatLisp.Proofs.Handles
import FlatLisp.Proofs.HandleRuns
