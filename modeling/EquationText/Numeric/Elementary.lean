import EquationText.Numeric.Decimal

/-! # Elementary functions of rationals

Each function returns a rational near the true value, with a relative error far below half a unit in
the last place of a double, so that rounding the result once gives the rounded true value. The
series are summed from the inside out in rationals of a fixed number of significant bits.
-/

namespace EquationText.Elementary

/-- The number of significant bits that intermediate results keep. -/
def workingBits : Nat := 256

/-- A rational rounded to the working precision. -/
def trim (q : Rat) : Rat := roundToBits workingBits q

/-- The largest `r` with `r ^ degree ≤ n` whose bits at and above `2 ^ position` are those of
`found`. -/
def rootFrom (degree n found : Nat) : (position : Nat) → Nat
  | 0 => found
  | position + 1 =>
    let candidate := found + Nat.pow 2 position
    rootFrom degree n (if Nat.pow candidate degree ≤ n then candidate else found) position

/-- The integer part of the root of a natural number of a positive degree. -/
def rootFloor (degree n : Nat) : Nat := rootFrom degree n 0 (n.log2 / degree + 1)

/-- The square root of a rational that is not negative. -/
def sqrt (q : Rat) : Rat :=
  let root := rootFloor 2 (q.num.natAbs * q.den * Nat.pow 4 workingBits)
  trim (mkRat root (q.den * Nat.pow 2 workingBits))

/-- The sum `1 / (2 k + 1) + t / (2 k + 3) + t ^ 2 / (2 k + 5) + …` of `count` terms, each partial
sum rounded to `bits` bits. -/
def arcSeries (bits : Nat) (t : Rat) (k : Nat) : (count : Nat) → Rat
  | 0 => 0
  | count + 1 => roundToBits bits (mkRat 1 (2 * k + 1) + t * arcSeries bits t (k + 1) count)

/-- The arc tangent of `1 / n`, for `n` at least 5. -/
def arctanInverse (bits n : Nat) : Rat :=
  mkRat 1 n * arcSeries bits (-(mkRat 1 (n * n))) 0 (bits / 4 + 2)

/-- The ratio of a circle's circumference to its diameter, to about `bits` bits. -/
def piTo (bits : Nat) : Rat := 16 * arctanInverse bits 5 - 4 * arctanInverse bits 239

def pi : Rat := piTo (workingBits + 16)

/-- The natural logarithm of a rational close to one. -/
def lnNear (q : Rat) : Rat :=
  let z := (q - 1) / (q + 1)
  trim (2 * z * arcSeries workingBits (trim (z * z)) 0 (workingBits / 3))

/-- The natural logarithm of two. -/
def lnTwo : Rat := 2 * lnNear (mkRat 4 3) + lnNear (mkRat 9 8)

/-- The natural logarithm of a positive rational. -/
def ln (q : Rat) : Rat :=
  let exponent := binaryExponent q
  let mantissa := q * basePow 2 (-exponent)
  if mkRat 4 3 < mantissa then trim (lnNear (mantissa / 2) + ((exponent + 1 : Int) : Rat) * lnTwo)
  else trim (lnNear mantissa + (exponent : Rat) * lnTwo)

/-- The decimal logarithm of a positive rational. -/
def log10 (q : Rat) : Rat := ln q / ln 10

/-- The sum `1 + r / k * (1 + r / (k + 1) * (…))` of `count` nested factors. -/
def expSeries (r : Rat) (k : Nat) : (count : Nat) → Rat
  | 0 => 1
  | count + 1 => trim (1 + r * mkRat 1 k * expSeries r (k + 1) count)

/-- The integer nearest to a rational, a half going up. -/
def nearestInt (q : Rat) : Int := (q + mkRat 1 2).floor

/-- The exponential of a rational. -/
def exp (q : Rat) : Rat :=
  let shift := nearestInt (q / lnTwo)
  expSeries (trim (q - (shift : Rat) * lnTwo)) 1 60 * basePow 2 shift

/-- The sum `1 - t / (j (j + 1)) * (1 - t / ((j + 2) (j + 3)) * (…))` of `count` nested factors. -/
def waveSeries (t : Rat) (j : Nat) : (count : Nat) → Rat
  | 0 => 1
  | count + 1 => trim (1 - t * mkRat 1 (j * (j + 1)) * waveSeries t (j + 2) count)

/-- The number of quarter turns nearest to an angle, and what remains of the angle. A remainder too
small to be told from the error of the quarter turns is zero. -/
def quarterTurns (q : Rat) : Int × Rat :=
  let quarter := piTo (workingBits + 16 + (binaryExponent q).toNat) / 2
  let turns := nearestInt (q / quarter)
  let rest := trim (q - (turns : Rat) * quarter)
  (turns, if turns ≠ 0 && rest.abs < basePow 2 (-200) then 0 else rest)

/-- The cosine and the sine of a rational angle. -/
def cosSin (q : Rat) : Rat × Rat :=
  let (turns, rest) := quarterTurns q
  let square := trim (rest * rest)
  let c := waveSeries square 1 40
  let s := trim (rest * waveSeries square 2 40)
  match (turns % 4).toNat with
  | 0 => (c, s)
  | 1 => (-s, c)
  | 2 => (-c, -s)
  | _ => (s, -c)

/-- The arc tangent of a rational of magnitude at most one; the argument is halved `halvings` times
in angle before the series is summed. -/
def arctanSmall (q : Rat) : (halvings : Nat) → Rat
  | 0 => trim (q * arcSeries workingBits (-(trim (q * q))) 0 (workingBits / 4))
  | halvings + 1 => 2 * arctanSmall (trim (q / (1 + sqrt (1 + q * q)))) halvings

/-- The angle of the point `(x, y)`, from minus a half turn to a half turn; the origin has angle
zero and the negative axis a half turn. -/
def angle (x y : Rat) : Rat :=
  if x = 0 && y = 0 then 0
  else if y.abs ≤ x.abs then
    let small := arctanSmall (trim (y / x)) 3
    if 0 < x then small else if 0 ≤ y then pi + small else small - pi
  else
    let small := arctanSmall (trim (x / y)) 3
    (if 0 < y then pi / 2 else -(pi / 2)) - small

/-- The hyperbolic cosine and sine of a rational. -/
def coshSinh (q : Rat) : Rat × Rat :=
  let up := exp q
  let down := 1 / up
  if q.abs < mkRat 1 8 then
    let square := trim (q * q)
    ((up + down) / 2, trim (q * waveSeries (-square) 2 40))
  else ((up + down) / 2, (up - down) / 2)

/-- The inverse of the hyperbolic sine. -/
def arsinh (q : Rat) : Rat :=
  let magnitude := ln (q.abs + sqrt (1 + q * q))
  if q < 0 then -magnitude else magnitude

end EquationText.Elementary
