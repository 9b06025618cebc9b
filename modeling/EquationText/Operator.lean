/-! # Operators

The operators that build an expression from operands, with their names and arities.
-/

namespace EquationText

/-- The operators of expressions. -/
inductive Operator
  | sum
  | difference
  | product
  | quotient
  | exponentiation
  | equation
  | negation
  | application
  | mediation
deriving DecidableEq, Inhabited

namespace Operator

/-- Every operator. -/
def all : List Operator :=
  [sum, difference, product, quotient, exponentiation, equation, negation, application, mediation]

/-- The number of operands. -/
def arity : Operator → Nat
  | negation => 1
  | mediation => 3
  | _ => 2

/-- The name used in messages. -/
def name : Operator → String
  | sum => "sum"
  | difference => "difference"
  | product => "product"
  | quotient => "quotient"
  | exponentiation => "exponentiation"
  | equation => "equation"
  | negation => "negation"
  | application => "application"
  | mediation => "mediation"

/-- The operator of a name. -/
def ofName? (name : String) : Option Operator := all.find? fun operator => operator.name = name

/-- Whether the operator is written between its two operands. -/
def isInfixed : Operator → Bool
  | sum | difference | product | quotient | exponentiation | equation => true
  | negation | application | mediation => false

/-- The sign written between the operands, if any. -/
def sign : Operator → String
  | sum => "+"
  | difference => "-"
  | product => "*"
  | quotient => "/"
  | exponentiation => "^"
  | equation => "="
  | negation | application | mediation => ""

end Operator

end EquationText
