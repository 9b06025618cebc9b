import EquationText.Main
import EquationText.Transcript
import EquationText.File.Folder
import EquationText.File.Preprocess
import EquationText.Proofs.Number.Exact
import EquationText.Proofs.Number.Tolerance
import EquationText.Proofs.Form.Exact
import EquationText.Proofs.Form.Value
import EquationText.Proofs.Action
import EquationText.Proofs.Solver.Elimination
import EquationText.Proofs.Expr.Reduction
import EquationText.Proofs.Solver.Evaluation
import EquationText.Proofs.Solver.Solving
import EquationText.Proofs.Solver.Installation
import EquationText.Proofs.Solver.Reduced
import EquationText.Proofs.Solver.Refusal
import EquationText.Proofs.Expr.Denotation
import EquationText.Proofs.Solver.Agreement
import EquationText.Proofs.Form.Range
import EquationText.Proofs.Solver.Outcome
import EquationText.Proofs.Solver.Solutions
import EquationText.Proofs.Solver.Determined
import EquationText.Proofs.Form.Gap
import EquationText.Proofs.Solver.Factors
import EquationText.Proofs.Solver.Losses
import EquationText.Proofs.Grammar.Names
import EquationText.Proofs.Session
import EquationText.Proofs.Solver.Engine
import EquationText.Proofs.Document
import EquationText.Proofs.Grammar.Derivation
import EquationText.Proofs.Expr.Program
import EquationText.Proofs.Grammar.Soundness
import EquationText.Proofs.Grammar.Completeness
import EquationText.Proofs.Session.Building
import EquationText.Proofs.Grammar.Statement
import EquationText.Proofs.Session.Equation
import EquationText.Proofs.Grammar.Recognition
import EquationText.Proofs.Document.Statements
import EquationText.Proofs.Document.Run
import EquationText.Proofs.Document.Submission
import EquationText.Proofs.Fault
import EquationText.Proofs.Solver.Faults
import EquationText.Proofs.Document.Steps
import EquationText.Proofs.Session.Calls
import EquationText.Proofs.Document.Discipline
import EquationText.Proofs.Token.Passage
import EquationText.Proofs.Token.Lookahead
import EquationText.Proofs.Token.Continuation
import EquationText.Proofs.Token.Blocks
import EquationText.Proofs.Token.Unreadable
import EquationText.Proofs.Grammar.Continuation
import EquationText.Proofs.Document.Composition
import EquationText.Proofs.Action.Comparison
import EquationText.Proofs.Session.Simulation
import EquationText.Proofs.Solver.Comparison
import EquationText.Proofs.Session.Comparison
import EquationText.Proofs.Document.Concatenation
import EquationText.Proofs.Document.Failure
import EquationText.Proofs.Document.Reporting
import EquationText.Proofs.Document.Conclusion
import EquationText.Proofs.Session.Recording
import EquationText.Proofs.Grammar.Limits
import EquationText.Proofs.Document.Limits
import EquationText.Proofs.Solver.Obstacles
import EquationText.Proofs.Solver.Unrefused
import EquationText.Proofs.Token.Layout
import EquationText.Proofs.Grammar.Beginnings
import EquationText.Proofs.Grammar.Foresight
import EquationText.Proofs.Grammar.Offence
import EquationText.Proofs.Document.Places
import EquationText.Proofs.Document.Lines
import EquationText.Proofs.Token.Progress
import EquationText.Proofs.Document.Capacity
import EquationText.Proofs.Token.References
import EquationText.Proofs.Document.LiteralText
import EquationText.Proofs.Token.Comments
import EquationText.Proofs.Expr.PostOrder
import EquationText.Proofs.Session.Requests
import EquationText.Proofs.Token.Spelling
import EquationText.Proofs.Grammar.Writing
import EquationText.Proofs.Expr.Reread
import EquationText.Proofs.Document.Showing
import EquationText.Proofs.Number.Rounding
import EquationText.Proofs.Number.Nearest
import EquationText.Proofs.Number.Shortest
import EquationText.Proofs.Token.Figures
import EquationText.Proofs.Number.Reading
import EquationText.Proofs.Form.Printed
import EquationText.Proofs.Solver.Stating
import EquationText.Proofs.Solver.Rereading
import EquationText.Proofs.Document.Described
import EquationText.Proofs.Number.Cutoff
import EquationText.Proofs.Form.Simplified
import EquationText.Proofs.Solver.Pivot
import EquationText.Proofs.Stack
