import EquationText.Numeric.Number
import EquationText.Numeric.Plane

/-! # Powers

A power is exact where its value is a rational that can be told from the operands: an integer power
of a rational or of an imaginary multiple, a root that comes out even, and the powers of zero and
one. Every other power is the principal value, rounded.
-/

namespace EquationText

/-- What an operation that may be inexact comes to. -/
inductive Outcome
  /-- There is no value: a pole. -/
  | undefined
  /-- The value is this rational. -/
  | rational (value : Rat)
  /-- The value is near this point. -/
  | near (value : Point)
  /-- The value is far beyond every double. -/
  | beyond

namespace Outcome

/-- The outcome of a computation in the plane. -/
def ofPoint? : Option Point → Outcome
  | some value => near value
  | none => beyond

end Outcome

namespace Number

/-- The point of the plane that a number stands for. -/
def toPoint (a : Number) : Point := ⟨a.re.value, a.im.value⟩

/-- The rational that a number is exactly, if it is real and exact. -/
def rational? (a : Number) : Option Rat :=
  match a.re, a.im with
  | .exact value, .exact im => if im.num = 0 then some value else none
  | _, _ => none

/-- The rational of which a number is the exact imaginary multiple, other than zero. -/
def imaginary? (a : Number) : Option Rat :=
  match a.re, a.im with
  | .exact re, .exact value => if re.num = 0 && value.num ≠ 0 then some value else none
  | _, _ => none

end Number

/-- The root of a positive rational of a positive degree, if it is rational. -/
def exactRoot? (degree : Nat) (q : Rat) : Option Rat :=
  let root (n : Nat) : Option Nat :=
    if n = 1 then some 1
    else if n.log2 < degree then none
    else
      let candidate := Elementary.rootFloor degree n
      if Nat.pow candidate degree = n then some candidate else none
  match root q.num.natAbs, root q.den with
  | some numerator, some denominator => some (mkRat numerator denominator)
  | _, _ => none

/-- An integer power of a rational other than zero. -/
def integerPower (base : Rat) (exponent : Int) : Rat :=
  if base = 1 then 1
  else if base = -1 then (if exponent % 2 = 0 then 1 else -1)
  else if 0 ≤ exponent then base ^ exponent.toNat
  else (base ^ (-exponent).toNat)⁻¹

/-- The power of a rational other than zero to a rational, where it is rational. -/
def rationalPower? (base exponent : Rat) : Option Rat :=
  if exponent.den = 1 then some (integerPower base exponent.num)
  else if base = 1 then some 1
  else if 0 < base then
    (exactRoot? exponent.den base).map fun root => integerPower root exponent.num
  else none

/-- The power of zero: one for the exponent zero, zero for positive exponents, and a pole
otherwise. -/
def zeroPower (exponent : Number) : Outcome :=
  if exponent.im.isZero && 0 < exponent.re.value then .rational 0 else .undefined

/-- The power `base ^ exponent`. -/
def power (base exponent : Number) : Outcome :=
  if exponent.isZero then .rational 1
  else if base.isZero then zeroPower exponent
  else
    let exact : Option Rat :=
      match base.rational?, exponent.rational? with
      | some b, some e => rationalPower? b e
      | some b, none => if b = 1 then some 1 else none
      | none, some e =>
        match base.imaginary? with
        | some b =>
          if e.den = 1 && e.num % 2 = 0 then
            some (integerPower b e.num * integerPower (-1) (e.num / 2))
          else none
        | none => none
      | none, none => none
    match exact with
    | some value => .rational value
    | none => .ofPoint? (Point.pow base.toPoint exponent.toPoint)

/-- The decimal order of magnitude of a power, from the real part of its exponent and the modulus of
its base, in double precision. -/
def powerScale (base exponent : Number) : Rat :=
  let log := Scalar.round53 (Elementary.log10 (Scalar.round53 base.toPoint.abs))
  Scalar.round53 (Scalar.round53 exponent.re.value * log)

end EquationText
