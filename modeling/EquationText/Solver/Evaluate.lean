import EquationText.Expr.Show
import EquationText.Solver
import EquationText.Solver.Operand

/-! # Evaluating expressions

The value of an expression is found bottom-up from what the solver knows. Each unnamed unknown of the
expression becomes a new one.
-/

namespace EquationText

/-- A computation that creates unknowns and may stop with a fault. -/
abbrev Evaluation (α : Type) : Type := StateT Nat (Except Cause) α

namespace Solver

/-- The product of `t` and the way from `a` to `b`. The way is not multiplied out before: unless `a` and `b` have
the same compound terms, it mentions their unknowns, also those that its form does not mention. -/
def scaleWay (t a b : Operand) (way : Value) : Except Cause Value :=
  if !t.value.isConstant && a.compounds ≠ b.compounds then .error (.solving .productOfUnknowns)
  else t.value.mul way

/-- The point `t` of the way from `a` to `b`, for `t[a, b]`. -/
def mediate (t a b : Operand) : Except Cause Value := do
  let way ← b.value.sub a.value
  let part ← scaleWay t a b way
  a.value.add part

/-- The value of an operation with two operands. -/
def operate (cutoff : Rat) (operator : Operator) (a b : Value) : Except Cause Value :=
  match operator with
  | .sum => a.add b
  | .difference => a.sub b
  | .product => a.mul b
  | .quotient => a.div cutoff b
  | .exponentiation => a.pow cutoff b
  | .equation => .error (.solving .equationAsValue)
  | .negation | .application | .mediation => .error (.solving .illFormed)

/-- The value of a number of an expression. -/
def literal (d : Double) : Except Cause Value :=
  match d.shortestValue? with
  | some q => .ok (.form (.ofRat q))
  | none => .error (.solving .numberRange)

/-- What a node comes to, from its operands. -/
def combine (settings : Settings) (solver : Solver) (node : Expr) (operands : List Operand) :
    Evaluation Operand :=
  match node, operands with
  | .named name, _ => pure ⟨.form (solver.formOf (.named name)), .factored false⟩
  | .anonymous, _ => fun created =>
    .ok (.ofValue (.form (.ofUnknown (.anonymous created))), created + 1)
  | .number d, _ => (literal d).map .ofValue
  | .negation _, [a] => pure a.neg
  | .application (.named name) _, [_, a] =>
    (a.value.applyNamed settings.cutoff name).map .ofValue
  | .application _ _, _ => throw (.solving .malformedApplication)
  | .mediation _ _ _, [t, a, b] => (mediate t a b).map .ofValue
  | .binary operator _ _, [a, b] =>
    (operate settings.cutoff operator a.value b.value).map .ofValue
  | _, _ => throw (.solving .illFormed)

/-- What a node comes to; its numbers have to lie within the range of doubles. -/
def combineInRange (settings : Settings) (solver : Solver) (node : Expr) (operands : List Operand) :
    Evaluation Operand := do
  let operand ← solver.combine settings node operands
  let value ← operand.value.checkRange
  return { operand with value }

/-- What an expression comes to. -/
def operandOf (settings : Settings) (solver : Solver) (expr : Expr) : Evaluation Operand :=
  expr.fold (solver.combineInRange settings)

/-- The value of an expression. -/
def evaluate (settings : Settings) (solver : Solver) (expr : Expr) : Evaluation Value :=
  Operand.value <$> solver.operandOf settings expr

end Solver

end EquationText
