import EquationText.Numeric.Scalar

/-! # Complex numbers over scalars -/

namespace EquationText

/-- A complex number by its real and imaginary part. -/
structure Number where
  re : Scalar
  im : Scalar
deriving DecidableEq, Inhabited

namespace Number

def zero : Number := ⟨.zero, .zero⟩

def one : Number := ⟨.one, .zero⟩

/-- The imaginary unit. -/
def imaginaryUnit : Number := ⟨.zero, .one⟩

def ofScalar (a : Scalar) : Number := ⟨a, .zero⟩

def ofRat (q : Rat) : Number := ofScalar (.exact q)

def add (a b : Number) : Number := ⟨a.re.add b.re, a.im.add b.im⟩

def neg (a : Number) : Number := ⟨a.re.neg, a.im.neg⟩

def sub (a b : Number) : Number := add a b.neg

def mul (a b : Number) : Number :=
  ⟨(a.re.mul b.re).sub (a.im.mul b.im), (a.re.mul b.im).add (a.im.mul b.re)⟩

/-- The reciprocal of a number other than zero: the conjugate over the square of the modulus, unless the real or the
imaginary part is all of the number. -/
def inv (a : Number) : Number :=
  if a.im.isZero then ofScalar a.re.inv
  else if a.re.isZero then ⟨.zero, a.im.inv.neg⟩
  else
    let scale := ((a.re.mul a.re).add (a.im.mul a.im)).inv
    ⟨a.re.mul scale, (a.im.mul scale).neg⟩

/-- The quotient of two numbers, the second other than zero. One real number is divided by another; otherwise the
first number is multiplied by the reciprocal. -/
def div (a b : Number) : Number :=
  if a.im.isZero && b.im.isZero then ofScalar (a.re.div b.re) else mul a b.inv

def isZero (a : Number) : Bool := a.re.isZero && a.im.isZero

def isExact (a : Number) : Bool := a.re.isExact && a.im.isExact

/-- Whether both parts lie within the range of doubles. -/
def isFinite (a : Number) : Bool := a.re.isFinite && a.im.isFinite

/-- The square of the modulus of what the parts hold. -/
def normSq (a : Number) : Rat := a.re.value * a.re.value + a.im.value * a.im.value

/-- The square of the modulus of the parts as doubles; none where a part is beyond their range. -/
def doubleNormSq? (a : Number) : Option Rat :=
  match a.re.toDouble.value?, a.im.toDouble.value? with
  | some re, some im => some (re * re + im * im)
  | _, _ => none

/-- Whether both parts are within the range of doubles and the modulus is not. -/
def modulusOverflows (a : Number) : Bool :=
  a.doubleNormSq?.any fun square => Double.rangeBound * Double.rangeBound ≤ square

/-- Whether the modulus is below `cutoff`. -/
def isNegligible (cutoff : Rat) (a : Number) : Bool :=
  0 < cutoff && a.doubleNormSq?.any fun square => square < cutoff * cutoff

/-- Whether the number, with its parts as doubles, differs from one by less than `cutoff`. -/
def isNearOne (cutoff : Rat) (a : Number) : Bool :=
  a.re.toDouble.value?.any fun re => isNegligible cutoff ⟨.exact (re - 1), a.im⟩

/-- The number with parts that are below `cutoff` as doubles replaced by zero. -/
def chop (cutoff : Rat) (a : Number) : Number := ⟨a.re.chop cutoff, a.im.chop cutoff⟩

/-- The larger magnitude of the two parts. -/
def magnitude (a : Number) : Rat :=
  if a.re.magnitude ≤ a.im.magnitude then a.im.magnitude else a.re.magnitude

end Number

end EquationText
