import SmallLisp.Span
import SmallLisp.Text.Ranges
import SmallLisp.Text.Blank
import SmallLisp.Text.Bytes
import SmallLisp.Text.Combining
import SmallLisp.Text.Unassigned
import SmallLisp.Text.Unseen
import SmallLisp.Text.Quoted
import SmallLisp.Text.Cluster.Class
import SmallLisp.Text.Cluster.Basic
import SmallLisp.Number.Double
import SmallLisp.Number.Decimal
import SmallLisp.Number.Shortest
import SmallLisp.Token
import SmallLisp.Atom
import SmallLisp.Primitive.Basic
import SmallLisp.Datum.Basic
import SmallLisp.Datum.Render
import SmallLisp.Datum.Equality
import SmallLisp.Reader
import SmallLisp.Eval.Error
import SmallLisp.Eval.SpecialForm
import SmallLisp.Store.Bindings
import SmallLisp.Store.Basic
import SmallLisp.Store.Action
import SmallLisp.Primitive.Apply
import SmallLisp.Eval.Basic
import SmallLisp.Interpreter
import SmallLisp.Report.Lines
import SmallLisp.Report.Basic
import SmallLisp.Shell.Backspace
import SmallLisp.Shell.Balance
import SmallLisp.Shell.Completion
import SmallLisp.Shell.Highlight
import SmallLisp.Shell.History
import SmallLisp.Shell.Input
import SmallLisp.Shell.Basic
import SmallLisp.Shell.Options
import SmallLisp.Session
import SmallLisp.Main
import SmallLisp.Proofs.Store.Growth
import SmallLisp.Proofs.Store.Chain
import SmallLisp.Proofs.Store.Reachable
import SmallLisp.Proofs.Eval.Forms
import SmallLisp.Proofs.Eval.PassedOn
import SmallLisp.Proofs.Eval.Outcome
import SmallLisp.Proofs.Eval.WriteFrame
import SmallLisp.Proofs.Likeness.Basic
import SmallLisp.Proofs.Likeness.Primitive
import SmallLisp.Proofs.Likeness.Form
import SmallLisp.Proofs.Likeness.Bindings
import SmallLisp.Proofs.Likeness.Exact
import SmallLisp.Proofs.Likeness.Anonymous
import SmallLisp.Proofs.Correspondence.Basic
import SmallLisp.Proofs.Correspondence.Eval
import SmallLisp.Proofs.Correspondence.Paired
import SmallLisp.Proofs.Reading
import SmallLisp.Proofs.Session.Basic
import SmallLisp.Proofs.SpanBlind
import SmallLisp.Proofs.FinishedFrames.Twins
import SmallLisp.Proofs.FinishedFrames.Session
import SmallLisp.Proofs.Isolation
import SmallLisp.Proofs.Grammar.Depth
import SmallLisp.Proofs.Grammar.Tree
import SmallLisp.Proofs.Grammar.Reader
import SmallLisp.Proofs.Tokens.Scan
import SmallLisp.Proofs.Tokens.Layout
import SmallLisp.Proofs.Waiting
import SmallLisp.Proofs.Number.Nearest
import SmallLisp.Proofs.Number.Literal
import SmallLisp.Proofs.RoundTrip
import SmallLisp.Proofs.Grammar.Shift
import SmallLisp.Proofs.Concatenation
import SmallLisp.Proofs.Stock.Basic
import SmallLisp.Proofs.Stock.Eval
import SmallLisp.Proofs.Stock.Calls
import SmallLisp.Proofs.Provenance
import SmallLisp.Proofs.ReadBack
import SmallLisp.Proofs.Shell.Blocks
import SmallLisp.Proofs.Shell.Loop
import SmallLisp.Proofs.Likeness.Renumber
import SmallLisp.Proofs.GivenOut
import SmallLisp.Proofs.Unreferenced
import SmallLisp.Proofs.LetStar
import SmallLisp.Proofs.Slices
import SmallLisp.Proofs.Faults
import SmallLisp.Proofs.Literals
import SmallLisp.Proofs.Shell.Brackets
import SmallLisp.Proofs.Shell.Highlight
import SmallLisp.Proofs.Report.Place
import SmallLisp.Proofs.Shell.Line
import SmallLisp.Proofs.Report.Pointing
import SmallLisp.Proofs.Shell.Completion
import SmallLisp.Proofs.Eval.LambdaFree
import SmallLisp.Proofs.Number.Equality
import SmallLisp.Proofs.Equality
import SmallLisp.Proofs.Messages
import SmallLisp.Proofs.Primitive.Numbers
import SmallLisp.Proofs.Store.Shadowing
import SmallLisp.Proofs.Inert
import SmallLisp.Proofs.Inventory.Basic
import SmallLisp.Proofs.Inventory.Eval
import SmallLisp.Proofs.Inventory.Client
