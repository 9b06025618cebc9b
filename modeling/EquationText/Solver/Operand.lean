import EquationText.Solver.Value

/-! # Operands

The value of a part of an expression is written in one of two ways. What is computed is multiplied out, with a term
for each part of a coefficient. A form that the solver knows keeps a coefficient of two parts as one factor of its
term, and a negation only puts a sign in front of it. When terms are collected, a term of the one kind and a term
of the other are never alike, which matters where a difference is used as it stands.
-/

namespace EquationText

/-- How a value is written. -/
inductive Arrangement
  /-- Multiplied out. -/
  | expanded
  /-- With coefficients as factors, behind a sign after an odd number of negations. -/
  | factored (negated : Bool)
deriving DecidableEq, Inhabited

namespace Arrangement

def neg : Arrangement → Arrangement
  | expanded => .expanded
  | factored negated => .factored !negated

end Arrangement

/-- A term with a coefficient of two parts that is one factor of it. -/
structure Compound where
  unknown : Unknown
  coefficient : Number
  /-- Whether a sign is in front of the term. -/
  negated : Bool
deriving DecidableEq

namespace Compound

def neg (term : Compound) : Compound := ⟨term.unknown, term.coefficient.neg, !term.negated⟩

end Compound

namespace Form

/-- The terms of a form with a coefficient of two parts, where the coefficients are factors. -/
def compounds (f : Form) (negated : Bool) : List Compound :=
  (f.terms.filter fun term => !term.2.re.isZero && !term.2.im.isZero).map fun term =>
    ⟨term.1, term.2, negated⟩

end Form

/-- The value of a part of an expression, and how it is written. -/
structure Operand where
  value : Value
  arrangement : Arrangement
deriving DecidableEq, Inhabited

namespace Operand

/-- An operand that was computed. -/
def ofValue (value : Value) : Operand := ⟨value, .expanded⟩

def neg (a : Operand) : Operand := ⟨a.value.neg, a.arrangement.neg⟩

/-- The terms with a coefficient of two parts that is one factor. -/
def compounds (a : Operand) : List Compound :=
  match a.value, a.arrangement with
  | .form f, .factored negated => f.compounds negated
  | _, _ => []

end Operand

end EquationText
