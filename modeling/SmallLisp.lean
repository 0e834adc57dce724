import SmallLisp.Number.Numeral
import SmallLisp.Number.Binary64
import SmallLisp.Number.Decimal
import SmallLisp.Number.Shortest
import SmallLisp.Text.Bytes
import SmallLisp.Text.Ranges
import SmallLisp.Text.Extender
import SmallLisp.Text.Shown
import SmallLisp.Text.ClusterClass
import SmallLisp.Text.Cluster
import SmallLisp.Text.Blank
import SmallLisp.Text.Quoted
import SmallLisp.Expr.Basic
import SmallLisp.Expr.Print
import SmallLisp.Token.Scan
import SmallLisp.Token.Tokenize
import SmallLisp.Expr.Parse
import SmallLisp.Operator.Basic
import SmallLisp.Value.Basic
import SmallLisp.Value.Decide
import SmallLisp.Value.Print
import SmallLisp.Eval.Error
import SmallLisp.Operator.Apply
import SmallLisp.Operator.Extension
import SmallLisp.Environment.Basic
import SmallLisp.Eval.Literal
import SmallLisp.Eval.Basic
import SmallLisp.Program.Chunk
import SmallLisp.Program.Run
import SmallLisp.Console.Folder
import SmallLisp.Console.Line
import SmallLisp.Console.Backspace
import SmallLisp.Console.Command
import SmallLisp.Console.Arguments
import SmallLisp.Console.Listing
import SmallLisp.Console.Session
import SmallLisp.Main
import SmallLisp.Proofs.Number.Numeral
import SmallLisp.Proofs.Text.Lines
import SmallLisp.Proofs.Token.Grammar
import SmallLisp.Proofs.Token.Sequence
import SmallLisp.Proofs.Token.Continuation
import SmallLisp.Proofs.Token.Balance
import SmallLisp.Proofs.Expr.Parts
import SmallLisp.Proofs.Expr.Reads
import SmallLisp.Proofs.Expr.Spelling
import SmallLisp.Proofs.Expr.Reader
import SmallLisp.Proofs.Expr.Balance
import SmallLisp.Proofs.Expr.Cursor
import SmallLisp.Proofs.Expr.Depth
import SmallLisp.Proofs.Expr.Halt
import SmallLisp.Proofs.Expr.Acceptance
import SmallLisp.Proofs.Expr.Refusal
import SmallLisp.Proofs.Expr.Offset
import SmallLisp.Proofs.Expr.RoundTrip
import SmallLisp.Proofs.Environment.Rebinding
import SmallLisp.Proofs.Operator.Results
import SmallLisp.Proofs.Value.Truth
import SmallLisp.Proofs.Value.Parts
import SmallLisp.Proofs.Value.Closures
import SmallLisp.Proofs.Eval.Outcome
import SmallLisp.Proofs.Eval.Exhausted
import SmallLisp.Proofs.Eval.Invariant
import SmallLisp.Proofs.Eval.HostFree
import SmallLisp.Proofs.Eval.Depth
import SmallLisp.Proofs.Eval.Rules
import SmallLisp.Proofs.Eval.Adequacy
import SmallLisp.Proofs.Eval.Calls
import SmallLisp.Proofs.Eval.Clauses
import SmallLisp.Proofs.Eval.Remaining
import SmallLisp.Proofs.Eval.Frame
import SmallLisp.Proofs.Eval.Noninterference
import SmallLisp.Proofs.Program.Blocks
import SmallLisp.Proofs.Program.Layout
import SmallLisp.Proofs.Program.Splitting
import SmallLisp.Proofs.Program.Sequence
import SmallLisp.Proofs.Program.Chunked
import SmallLisp.Proofs.Token.Longest
import SmallLisp.Proofs.Token.Decomposition
import SmallLisp.Proofs.Token.Offset
import SmallLisp.Proofs.Token.Rejection
import SmallLisp.Proofs.Token.Spacing
import SmallLisp.Proofs.Eval.Commute
import SmallLisp.Proofs.Eval.FirstOrder
import SmallLisp.Proofs.Value.Shape
import SmallLisp.Proofs.Program.History
import SmallLisp.Proofs.Program.Shallow
import SmallLisp.Proofs.Program.Composition
import SmallLisp.Proofs.Program.Numbers
import SmallLisp.Proofs.Console.Chunks
import SmallLisp.Proofs.Program.Literals
import SmallLisp.Proofs.Program.Atoms
import SmallLisp.Proofs.Number.Rational
import SmallLisp.Proofs.Value.Narrowing
import SmallLisp.Proofs.Operator.Exact
import SmallLisp.Proofs.Number.Decimal
import SmallLisp.Proofs.Number.Layout
import SmallLisp.Proofs.Number.Shortest
import SmallLisp.Proofs.Program.Printed
import SmallLisp.Proofs.Number.Order
import SmallLisp.Proofs.Operator.Comparison
import SmallLisp.Proofs.Operator.Faults
import SmallLisp.Proofs.Value.Quoted
import SmallLisp.Proofs.Eval.Levels
import SmallLisp.Proofs.Program.Recursion
