import EquationText.Fault
import EquationText.Form
import EquationText.Numeric.Function

/-! # Values of expressions

The value of an expression is a linear form. With a tolerance that lets no number count as zero a
division by zero is not refused; its value is infinite, and an infinite value takes part in further
arithmetic as far as it has a meaning.
-/

namespace EquationText

/-- The value of an expression. -/
inductive Value
  | form (form : Form)
  | infinite
deriving DecidableEq

namespace Value

instance : Inhabited Value := ⟨.form default⟩

/-- Whether the value mentions no unknown. -/
def isConstant : Value → Bool
  | form f => f.isConstant
  | infinite => true

def neg : Value → Value
  | form f => .form f.neg
  | infinite => .infinite

def add : Value → Value → Except Cause Value
  | form f, form g => .ok (.form (f.add g))
  | form _, infinite | infinite, form _ => .ok .infinite
  | infinite, infinite => .error (.solving .numberRange)

def sub (a b : Value) : Except Cause Value := add a b.neg

/-- The product of two values, one of which has to be constant. -/
def mul (a b : Value) : Except Cause Value :=
  match a, b with
  | .form f, .form g =>
    if f.isConstant then .ok (.form (g.scale f.constant))
    else if g.isConstant then .ok (.form (f.scale g.constant))
    else .error (.solving .productOfUnknowns)
  | .form f, .infinite | .infinite, .form f =>
    if f.isConstant && f.constant.isZero then .error (.solving .numberRange) else .ok .infinite
  | .infinite, .infinite => .ok .infinite

/-- The quotient of two values, the second of which has to be a constant that does not count as
zero. -/
def div (cutoff : Rat) (a b : Value) : Except Cause Value :=
  match b with
  | .infinite =>
    match a with
    | .form _ => .ok (.form (.ofNumber .zero))
    | .infinite => .error (.solving .numberRange)
  | .form g =>
    if !g.isConstant then .error (.solving .unknownDivisor)
    else if g.constant.modulusOverflows then .error .modulusRange
    else if g.constant.isNegligible cutoff then .error (.solving .divisionByZero)
    else if g.constant.isZero then
      match a with
      | .form f =>
        if f.isConstant && f.constant.isZero then .error (.solving .numberRange) else .ok .infinite
      | .infinite => .ok .infinite
    else
      match a with
      | .form f => .ok (.form (f.div g.constant))
      | .infinite => .ok .infinite

/-- The number of a constant value, provided it lies within the range of doubles. -/
def finiteNumber : Value → Except Cause Number
  | form f => if f.constant.isFinite then .ok f.constant else .error (.solving .numberRange)
  | infinite => .error (.solving .numberRange)

/-- The number that an inexact operation comes to: exact if it is rational, and otherwise rounded,
without the parts that count as zero. -/
def settle (cutoff : Rat) (computation : Computation) : Outcome → Except Cause Number
  | .undefined => .error (.solving (.undefinedResult computation))
  | .beyond => .error (.solving (.resultRange computation))
  | .rational q =>
    let number := Number.ofRat q
    if number.isFinite then .ok number else .error (.solving (.resultRange computation))
  | .near point =>
    let number : Number := ⟨.ofApproximation point.re, .ofApproximation point.im⟩
    if number.isFinite then .ok (number.chop cutoff)
    else .error (.solving (.resultRange computation))

/-- The largest decimal order of magnitude of a power. -/
def maxDecimalExponent : Rat := 308

/-- A power whose decimal order of magnitude is checked first, unless the base vanishes as a
double. -/
def checkedPower (cutoff : Rat) (base exponent : Number) : Except Cause Number :=
  if base.magnitude = 0 then settle cutoff .exponentiation (power base exponent)
  else if base.modulusOverflows then .error .modulusRange
  else
    let scale := powerScale base exponent
    if maxDecimalExponent < scale then .error (.solving (.resultRange .exponentiation))
    else if scale < -maxDecimalExponent then .ok .zero
    else settle cutoff .exponentiation (power base exponent)

/-- The power of two values, which have to be constants. -/
def pow (cutoff : Rat) (base exponent : Value) : Except Cause Value :=
  if !base.isConstant then .error (.solving .unknownBase)
  else if !exponent.isConstant then .error (.solving .unknownExponent)
  else do
    let b ← base.finiteNumber
    let e ← exponent.finiteNumber
    let number ← checkedPower cutoff b e
    return .form (.ofNumber number)

/-- A named function applied to a value, which has to be constant. -/
def applyNamed (cutoff : Rat) (name : String) (argument : Value) : Except Cause Value :=
  match NumericFunction.ofName? name with
  | none => .error (.solving (.unknownFunction name))
  | some function =>
    match argument with
    | .infinite => .error (.solving (.undefinedResult (.function name)))
    | .form f =>
      if !f.isConstant then .error (.solving (.functionOfUnknown name))
      else do
        let number ← settle cutoff (.function name) (function.apply f.constant)
        return .form (.ofNumber number)

/-- The value, provided each of its numbers lies within the range of doubles. -/
def checkRange (value : Value) : Except Cause Value :=
  match value with
  | .form f => if f.isFinite then .ok value else .error (.solving .numberRange)
  | .infinite => .ok .infinite

end Value

end EquationText
