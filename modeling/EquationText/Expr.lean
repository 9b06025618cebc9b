import EquationText.Fault
import EquationText.Numeric.Decimal

/-! # Expressions

The trees of equations. A node owns its operands, and each anonymous node is an unknown of its own.
-/

namespace EquationText

/-- An expression tree. -/
inductive Expr
  | named (name : String)
  | anonymous
  | number (value : Double)
  | negation (operand : Expr)
  | application (callee argument : Expr)
  | mediation (condition consequent alternative : Expr)
  | binary (operator : Operator) (left right : Expr)
deriving DecidableEq, Inhabited

namespace Expr

/-- The direct operands, left to right. -/
def children : Expr → List Expr
  | named _ | anonymous | number _ => []
  | negation operand => [operand]
  | application callee argument => [callee, argument]
  | mediation condition consequent alternative => [condition, consequent, alternative]
  | binary _ left right => [left, right]

/-- The number of nodes. -/
def nodes : Expr → Nat
  | named _ | anonymous | number _ => 1
  | negation operand => operand.nodes + 1
  | application callee argument => callee.nodes + argument.nodes + 1
  | mediation condition consequent alternative =>
    condition.nodes + consequent.nodes + alternative.nodes + 1
  | binary _ left right => left.nodes + right.nodes + 1

/-- Whether the expression is an equation at its root. -/
def isEquation : Expr → Bool
  | binary .equation _ _ => true
  | _ => false

/-- The node that an operator builds from operands in the order they were given. -/
def ofOperands (operator : Operator) (operands : List Expr) : Except Cause Expr :=
  match operator, operands with
  | .negation, [operand] => .ok (.negation operand)
  | .application, [callee, argument] => .ok (.application callee argument)
  | .mediation, [condition, consequent, alternative] =>
    .ok (.mediation condition consequent alternative)
  | operator, [left, right] =>
    if operator.arity = 2 then .ok (.binary operator left right)
    else .error (.usage (.operandCount operator operands.length))
  | operator, operands => .error (.usage (.operandCount operator operands.length))

end Expr

end EquationText
