import Offside.Text.Blank
import Offside.Text.Lines
import Offside.Text.Indent
import Offside.Text.Lowercase
import Offside.Numeral.Decimal
import Offside.Numeral.Lenient
import Offside.Diagnostic
import Offside.Token.Stream
import Offside.Tree.Statement
import Offside.Source.Expression
import Offside.Source.Line
import Offside.Source.Layout
import Offside.Run.Statement
import Offside.Outline.Tree
import Offside.Command
import Offside.Main
import Offside.Proofs.Token.Settled
import Offside.Proofs.Tree.Lines
import Offside.Proofs.Tree.Shape
import Offside.Proofs.Source.Expression
import Offside.Proofs.Source.Grammar
import Offside.Proofs.Source.Recognition
import Offside.Proofs.Failing
import Offside.Proofs.Source.Line
import Offside.Proofs.Source.Program
import Offside.Proofs.Source.Terminator
import Offside.Proofs.Token.Joined
import Offside.Proofs.Tree.Layouts
import Offside.Proofs.Source.Spelled
import Offside.Proofs.Source.Settling
import Offside.Proofs.Source.RoundTrip
import Offside.Proofs.Run.Evaluation
import Offside.Proofs.Run.Moments
import Offside.Proofs.Tree.Nodes
import Offside.Proofs.Run.Law
import Offside.Proofs.Run.Faults
import Offside.Proofs.Run.Fuel
import Offside.Proofs.Run.History
import Offside.Proofs.Run.Limit
import Offside.Proofs.Run.Termination
import Offside.Proofs.Tree.Names
import Offside.Proofs.Text.Case
import Offside.Proofs.Token.Placed
import Offside.Proofs.Token.FirstWord
import Offside.Proofs.Relabeling.Basic
import Offside.Proofs.Relabeling.Reading
import Offside.Proofs.Relabeling.Program
import Offside.Proofs.Relabeling.Running
import Offside.Proofs.Relabeling.Case
import Offside.Proofs.Relabeling.Layout
import Offside.Proofs.Source.Written
import Offside.Proofs.Source.Blame
import Offside.Proofs.Source.Offence
import Offside.Proofs.Source.Composition
import Offside.Proofs.Run.Composition
import Offside.Proofs.Token.Longest
import Offside.Proofs.Run.Simulation
import Offside.Proofs.Run.Dependence
import Offside.Proofs.Tree.Placed
import Offside.Proofs.Source.Rows
import Offside.Proofs.Source.Placement
import Offside.Proofs.Run.Places
import Offside.Proofs.Run.Input
import Offside.Proofs.Dialogue.Segment
import Offside.Proofs.Dialogue.Snippet
import Offside.Proofs.Dialogue.Leading
import Offside.Proofs.Dialogue.Session
import Offside.Proofs.Token.RoundTrip
import Offside.Proofs.Run.Observation
import Offside.Proofs.Run.Expansion
import Offside.Proofs.Outline.Faithful
import Offside.Proofs.Source.Descent
import Offside.Proofs.Source.Groups
import Offside.Proofs.Store
import Offside.Proofs.Text.Typed
import Offside.Proofs.Source.SimpleLines
import Offside.Proofs.Run.Numerals
import Offside.Proofs.Run.Habit
import Offside.Proofs.Run.Lines
import Offside.Proofs.Text.Indent
import Offside.Proofs.Token.Stream
import Offside.Proofs.Source.Cursor
import Offside.Proofs.Source.Lookahead
import Offside.Proofs.Source.Ownership
import Offside.Proofs.Source.Continuation
import Offside.Proofs.Source.Agreement
import Offside.Proofs.Source.StatementLines
