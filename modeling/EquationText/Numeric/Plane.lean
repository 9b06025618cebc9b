import EquationText.Numeric.Elementary

/-! # Elementary functions in the plane

The elementary functions of complex numbers with rational parts, on their principal branches. On the
cuts of the inverse functions the value is continuous with the side that the formulas of the square
roots give: a negative number has the angle of a half turn. A function has no value where its result
is far beyond every double.
-/

namespace EquationText

open Elementary

/-- A complex number with rational parts. -/
structure Point where
  re : Rat
  im : Rat
deriving DecidableEq, Inhabited

namespace Point

def ofRat (q : Rat) : Point := ⟨q, 0⟩

def add (a b : Point) : Point := ⟨a.re + b.re, a.im + b.im⟩

def sub (a b : Point) : Point := ⟨a.re - b.re, a.im - b.im⟩

def mul (a b : Point) : Point :=
  ⟨trim (a.re * b.re - a.im * b.im), trim (a.re * b.im + a.im * b.re)⟩

/-- The square of the distance from the origin. -/
def normSq (a : Point) : Rat := a.re * a.re + a.im * a.im

def div (a b : Point) : Point :=
  let scale := b.normSq
  ⟨trim ((a.re * b.re + a.im * b.im) / scale), trim ((a.im * b.re - a.re * b.im) / scale)⟩

/-- The distance from the origin. -/
def abs (a : Point) : Rat :=
  if a.im = 0 then a.re.abs else if a.re = 0 then a.im.abs else sqrt a.normSq

/-- Beyond this exponent the exponential is far outside the range of doubles. -/
def maxExponent : Rat := 800

/-- The exponential; a vanishing one is zero. -/
def exp (a : Point) : Option Point :=
  if maxExponent < a.re then none
  else if a.re < -maxExponent then some ⟨0, 0⟩
  else
    let radius := Elementary.exp a.re
    let (c, s) := cosSin a.im
    some ⟨trim (radius * c), trim (radius * s)⟩

/-- The logarithm of a number other than zero. -/
def ln (a : Point) : Point := ⟨Elementary.ln a.normSq / 2, angle a.re a.im⟩

/-- The power `base ^ exponent`, for a base other than zero. -/
def pow (base exponent : Point) : Option Point := exp (mul exponent (ln base))

/-- The square root with a real part that is not negative. -/
def sqrt (a : Point) : Point :=
  let radius := a.abs
  if 0 ≤ a.re then
    let re := Elementary.sqrt ((radius + a.re) / 2)
    ⟨re, if re = 0 then 0 else trim (a.im / (2 * re))⟩
  else
    let im := Elementary.sqrt ((radius - a.re) / 2)
    ⟨trim (a.im.abs / (2 * im)), if 0 ≤ a.im then im else -im⟩

/-- The cosine and the sine. -/
def cosSin (a : Point) : Option (Point × Point) :=
  if maxExponent < a.im.abs then none
  else
    let (c, s) := Elementary.cosSin a.re
    let (ch, sh) := coshSinh a.im
    some (⟨trim (c * ch), -(trim (s * sh))⟩, ⟨trim (s * ch), trim (c * sh)⟩)

def cos (a : Point) : Option Point := (cosSin a).map Prod.fst

def sin (a : Point) : Option Point := (cosSin a).map Prod.snd

/-- The tangent; far from the real axis it is the imaginary unit or its opposite. -/
def tan (a : Point) : Option Point :=
  match cosSin a with
  | some (c, s) => some (div s c)
  | none => some ⟨0, if 0 < a.im then 1 else -1⟩

def asin (a : Point) : Point :=
  let left := sqrt ⟨1 - a.re, -a.im⟩
  let right := sqrt ⟨1 + a.re, a.im⟩
  ⟨angle (left.re * right.re - left.im * right.im) a.re,
    arsinh (left.re * right.im - left.im * right.re)⟩

def acos (a : Point) : Point :=
  let left := sqrt ⟨1 - a.re, -a.im⟩
  let right := sqrt ⟨1 + a.re, a.im⟩
  ⟨2 * angle right.re left.re, arsinh (right.re * left.im - right.im * left.re)⟩

/-- The inverse of the tangent, away from the imaginary unit and its opposite. -/
def atan (a : Point) : Point :=
  let difference := sub (ln ⟨1 + a.im, -a.re⟩) (ln ⟨1 - a.im, a.re⟩)
  ⟨-(difference.im / 2), difference.re / 2⟩

end Point

end EquationText
