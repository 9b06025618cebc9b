import EquationText.Numeric.Double

/-! # Scalars, exact or rounded

A real number in a computation is an exact rational until an inexact function produces it; from then
on it keeps 53 significant bits. Sums and products of exact scalars are exact, and one rounded
operand rounds the result. A rounded result that vanishes is the exact zero.
-/

namespace EquationText

/-- A real number that is known exactly or to 53 significant bits. -/
inductive Scalar
  | exact (value : Rat)
  | rounded (value : Rat)
deriving DecidableEq

namespace Scalar

/-- A rational to 53 significant bits. -/
def round53 (q : Rat) : Rat := roundToBits 53 q

instance : Inhabited Scalar := ⟨.exact 0⟩

def zero : Scalar := .exact 0

def one : Scalar := .exact 1

/-- The rational that the scalar holds. -/
def value : Scalar → Rat
  | exact value | rounded value => value

def isExact : Scalar → Bool
  | exact _ => true
  | rounded _ => false

/-- The scalar of an inexact result. -/
def ofApproximation (q : Rat) : Scalar :=
  if q.num = 0 then .exact 0 else .rounded (round53 q)

def add : Scalar → Scalar → Scalar
  | exact a, exact b => .exact (a + b)
  | a, b => ofApproximation (round53 a.value + round53 b.value)

/-- The product; the exact zero annihilates every scalar. -/
def mul : Scalar → Scalar → Scalar
  | exact a, exact b => .exact (a * b)
  | exact a, rounded b | rounded b, exact a =>
    if a.num = 0 then .exact 0 else ofApproximation (round53 a * b)
  | rounded a, rounded b => ofApproximation (a * b)

def neg : Scalar → Scalar
  | exact a => .exact (-a)
  | rounded a => .rounded (-a)

def sub (a b : Scalar) : Scalar := add a b.neg

/-- The reciprocal of a scalar other than zero. -/
def inv : Scalar → Scalar
  | exact a => .exact a⁻¹
  | rounded a => ofApproximation a⁻¹

/-- The quotient of two scalars, the second other than zero. A rounded scalar is divided at once; an exact one is
multiplied by the reciprocal. -/
def div : Scalar → Scalar → Scalar
  | rounded a, b => ofApproximation (a / round53 b.value)
  | exact a, b => mul (.exact a) b.inv

def isZero (a : Scalar) : Bool := a.value.num = 0

/-- The double that a scalar is printed and compared as. -/
def toDouble (a : Scalar) : Double := .ofRat (round53 a.value)

/-- Whether the scalar lies within the range of doubles. -/
def isFinite (a : Scalar) : Bool := a.toDouble.isFinite

/-- The magnitude as a double; what is beyond their range counts as its bound. -/
def magnitude (a : Scalar) : Rat :=
  match a.toDouble.value? with
  | some value => value.abs
  | none => Double.overflow

/-- The exact zero in place of a scalar that is below `cutoff` as a double. -/
def chop (cutoff : Rat) (a : Scalar) : Scalar :=
  if a.toDouble.isBelow cutoff then zero else a

end Scalar

end EquationText
