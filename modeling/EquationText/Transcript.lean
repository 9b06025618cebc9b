import EquationText.Engine
import EquationText.Expr.Show
import EquationText.Solver.Command

/-! # Engines that record

Two engines that solve nothing. One builds texts instead of trees and keeps what it is asked to solve
and to do; the other is the linear engine, except that it keeps the trees of the equations.
-/

namespace EquationText

/-- The state of the engine that builds texts. -/
structure Transcript where
  /-- The number of values that the operand stack may hold. -/
  maxDepth : Int
  /-- The texts of the names that count as solved. -/
  bindings : List (String × String)
  /-- The equations in the order they came. -/
  solved : List String
  /-- The commands in the order they came. -/
  commands : List (String × String)

/-- The engine that builds texts; it refuses the command `fail`. -/
def transcriptEngine : Engine Transcript String where
  hasRoom transcript wanted := wanted ≤ transcript.maxDepth
  named name := name
  anonymous := "?"
  number value := value.toBrief
  construct operator operands :=
    let inner := ", ".intercalate operands
    .ok s!"{operator.name}({inner})"
  solve equation := do
    Action.modify fun transcript => { transcript with solved := transcript.solved ++ [equation] }
    return []
  command name payload :=
    if name = "fail" then Action.failWith (.solving .refusedCommand)
    else Action.modify fun transcript =>
      { transcript with commands := transcript.commands ++ [(name, payload)] }
  translate transcript name := .ok (valueOf? name transcript.bindings)

/-- The state of the engine that keeps trees. -/
structure TreeRecord where
  solver : Solver
  /-- The equations in the order they came. -/
  equations : List Expr

/-- The linear engine, except that equations are kept and not solved. -/
def treeRecordEngine (settings : Settings) : Engine TreeRecord Expr where
  hasRoom record := record.solver.hasRoom
  named := .named
  anonymous := .anonymous
  number := .number
  construct := Expr.ofOperands
  solve equation := do
    Action.modify fun record => { record with equations := record.equations ++ [equation] }
    return []
  command name payload :=
    (Solver.command settings name payload).within (·.solver) fun solver record =>
      { record with solver }
  translate record name := record.solver.translate settings name

end EquationText
