import Awk.Arithmetic
import Awk.CommandLine.Arguments
import Awk.CommandLine.Run
import Awk.Config.Datum
import Awk.Config.Json
import Awk.Config.Load
import Awk.Config.Options
import Awk.Config.Toml
import Awk.Config.Yaml
import Awk.Evaluator.Argument
import Awk.Evaluator.Builtin
import Awk.Evaluator.Call
import Awk.Evaluator.Expr
import Awk.Evaluator.Stmt
import Awk.Files.Disk
import Awk.Files.FileSystem
import Awk.Files.Path
import Awk.Format.Directive
import Awk.Format.Printf
import Awk.Format.Template
import Awk.Host
import Awk.Machine.Basic
import Awk.Machine.Fault
import Awk.Machine.Input
import Awk.Machine.Names
import Awk.Machine.Output
import Awk.Machine.Record
import Awk.Main
import Awk.Number.Basic
import Awk.Number.Binary
import Awk.Number.Decimal
import Awk.Number.Functions
import Awk.Number.Numeral
import Awk.Number.Power
import Awk.Number.Shortest
import Awk.Platform
import Awk.Program.Basic
import Awk.Program.Outline
import Awk.Proofs.Arrays.Keys
import Awk.Proofs.Arrays.Misuse
import Awk.Proofs.Arrays.Split
import Awk.Proofs.Call
import Awk.Proofs.Change
import Awk.Proofs.Computation
import Awk.Proofs.Config.Settings
import Awk.Proofs.Counting
import Awk.Proofs.Depth
import Awk.Proofs.EffectFree
import Awk.Proofs.Exit.Rules
import Awk.Proofs.Exit.Statement
import Awk.Proofs.Faults
import Awk.Proofs.Fields.Separator
import Awk.Proofs.Fields.Store
import Awk.Proofs.Files.Canonical
import Awk.Proofs.Files.Confinement
import Awk.Proofs.Files.Cursors
import Awk.Proofs.Files.Redirects
import Awk.Proofs.Format.Composition
import Awk.Proofs.Invariant
import Awk.Proofs.Joining.Alike
import Awk.Proofs.Joining.Items
import Awk.Proofs.Joining.Levels
import Awk.Proofs.Joining.Operand
import Awk.Proofs.Joining.Outcome
import Awk.Proofs.Joining.Programs
import Awk.Proofs.Joining.Refusal
import Awk.Proofs.Joining.Simple
import Awk.Proofs.Joining.Statements
import Awk.Proofs.Joining.Words
import Awk.Proofs.Jumps.Rules
import Awk.Proofs.Limits.Follows
import Awk.Proofs.Limits.Run
import Awk.Proofs.Names
import Awk.Proofs.Number.Exact
import Awk.Proofs.Number.Longest
import Awk.Proofs.Number.Numeral
import Awk.Proofs.Operations
import Awk.Proofs.Parameters
import Awk.Proofs.Parts
import Awk.Proofs.Ranges
import Awk.Proofs.Reachable
import Awk.Proofs.Records.Queue
import Awk.Proofs.Records.Evaluation
import Awk.Proofs.Records.Nested
import Awk.Proofs.Records.Run
import Awk.Proofs.Regex.Bracket
import Awk.Proofs.Regex.Keeping
import Awk.Proofs.Regex.Quoting
import Awk.Proofs.Regex.Splitting
import Awk.Proofs.Regex.Substitution
import Awk.Proofs.Regex.Width
import Awk.Proofs.Relation.Basic
import Awk.Proofs.Relation.Builtin
import Awk.Proofs.Relation.Expression
import Awk.Proofs.Relation.Run
import Awk.Proofs.Relation.Statement
import Awk.Proofs.Scope.Aliases
import Awk.Proofs.Scope.Globals
import Awk.Proofs.Source.Excerpt
import Awk.Proofs.Source.Exclusion
import Awk.Proofs.Source.Greater
import Awk.Proofs.Source.Ladder
import Awk.Proofs.Source.Nesting
import Awk.Proofs.Source.Operand
import Awk.Proofs.Source.Outcome
import Awk.Proofs.Source.Parameters
import Awk.Proofs.Source.Phrase
import Awk.Proofs.Source.Position
import Awk.Proofs.Source.Progress
import Awk.Proofs.Source.Reading
import Awk.Proofs.Source.Recognition
import Awk.Proofs.Source.RoundTrip
import Awk.Proofs.Source.Scan
import Awk.Proofs.Source.Soundness
import Awk.Proofs.Source.Spelling
import Awk.Proofs.Source.Token
import Awk.Proofs.Source.WellFormed
import Awk.Proofs.Stepwise.Copy
import Awk.Proofs.Stepwise.Run
import Awk.Proofs.Stepwise.Unaware
import Awk.Proofs.Table
import Awk.Proofs.Termination.Run
import Awk.Proofs.Termination.Stepping
import Awk.Proofs.Text.Paragraphs
import Awk.Proofs.Text.Pieces
import Awk.Proofs.Text.Strip
import Awk.Proofs.Text.Window
import Awk.Proofs.Text.Words
import Awk.Random
import Awk.Regex.Basic
import Awk.Regex.Cache
import Awk.Regex.CharSet
import Awk.Regex.Dialect
import Awk.Regex.Matcher
import Awk.Regex.Parser
import Awk.Regex.Substitute
import Awk.Report
import Awk.Run
import Awk.Source.Check
import Awk.Source.Error
import Awk.Source.Excerpt
import Awk.Source.Expression
import Awk.Source.Literal
import Awk.Source.Parse
import Awk.Source.Parser
import Awk.Source.Position
import Awk.Source.Statement
import Awk.Source.Token
import Awk.Source.Tree
import Awk.Splitter
import Awk.Substring
import Awk.Table
import Awk.Text.Blank
import Awk.Text.Case
import Awk.Text.CaseTable
import Awk.Text.Digit
import Awk.Text.Integer
import Awk.Text.Newline
import Awk.Text.Printable
import Awk.Text.Quoted
import Awk.Text.Split
import Awk.Text.Utf8
import Awk.Text.Word
import Awk.Value
