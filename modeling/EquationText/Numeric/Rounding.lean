/-! # Rounding to the nearest

Quotients are rounded to the nearest integer and rationals to the nearest multiple of a power of
two. A tie goes to the even neighbour throughout.
-/

namespace EquationText

/-- The integer nearest to `numerator / denominator`; a tie goes to the even one. -/
def roundDiv (numerator denominator : Nat) : Nat :=
  let quotient := numerator / denominator
  let twice := 2 * (numerator % denominator)
  if twice < denominator then quotient
  else if denominator < twice then quotient + 1
  else quotient + quotient % 2

/-- The exponent of the leading digit of a positive quotient in base `base`, from the exponents of
the leading digits of its numerator and denominator. -/
def leadingExponent (base : Nat) (numerator denominator above below : Nat) : Int :=
  let guess : Int := above - below
  if denominator * Nat.pow base guess.toNat ≤ numerator * Nat.pow base (-guess).toNat then guess
  else guess - 1

/-- The integer `k` with `2 ^ k ≤ |q| < 2 ^ (k + 1)`, for `q` other than zero. -/
def binaryExponent (q : Rat) : Int :=
  leadingExponent 2 q.num.natAbs q.den q.num.natAbs.log2 q.den.log2

/-- The power of a base with a possibly negative exponent. -/
def basePow (base : Nat) (exponent : Int) : Rat :=
  if 0 ≤ exponent then (Nat.pow base exponent.toNat : Rat) else mkRat 1 (Nat.pow base (-exponent).toNat)

/-- The multiple of `2 ^ exponent` nearest to `q`; a tie goes to the even multiple. -/
def roundToUnit (q : Rat) (exponent : Int) : Rat :=
  let up := Nat.pow 2 exponent.toNat
  let down := Nat.pow 2 (-exponent).toNat
  let multiple := roundDiv (q.num.natAbs * down) (q.den * up)
  let signed : Int := if q.num < 0 then -multiple else multiple
  mkRat (signed * up) down

/-- The rational with at most `bits` significant binary digits nearest to `q`, of any magnitude. -/
def roundToBits (bits : Nat) (q : Rat) : Rat :=
  if q.num = 0 then 0 else roundToUnit q (binaryExponent q + 1 - bits)

end EquationText
