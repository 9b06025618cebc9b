import EquationText.Numeric.Double

/-! # Decimal digits and their layout

A positive rational is rounded to a number of significant decimal digits, and digits are laid out
positionally or with an exponent. The two layouts in use differ in a record only.
-/

namespace EquationText

/-- The digits of a natural number in base ten, most significant first. -/
def decimalDigits (n : Nat) : List Char := Nat.toDigits 10 n

/-- The integer `k` with `10 ^ k ≤ q < 10 ^ (k + 1)`, for positive `q`. -/
def decimalExponent (q : Rat) : Int :=
  leadingExponent 10 q.num.natAbs q.den ((decimalDigits q.num.natAbs).length - 1)
    ((decimalDigits q.den).length - 1)

/-- A positive decimal: the whole number `digits` with its first digit at `10 ^ exponent`. -/
structure Decimal where
  digits : Nat
  exponent : Int
deriving DecidableEq

namespace Decimal

/-- The decimal made of `count` digits that stands for `multiple` units of the last of them, where
the first digit of the number being written is at `exponent`. -/
def ofMultiple (multiple count : Nat) (exponent : Int) : Decimal :=
  if Nat.pow 10 count ≤ multiple then ⟨multiple / 10, exponent + 1⟩ else ⟨multiple, exponent⟩

/-- The positive rational `q` as a quotient whose integer part has `count` digits. -/
def scaled (q : Rat) (count : Nat) (exponent : Int) : Nat × Nat :=
  let shift : Int := count - 1 - exponent
  (q.num.natAbs * Nat.pow 10 shift.toNat, q.den * Nat.pow 10 (-shift).toNat)

/-- A positive rational rounded to `count` significant digits; a tie goes to the even digit. -/
def round (q : Rat) (count : Nat) : Decimal :=
  let exponent := decimalExponent q
  let (numerator, denominator) := scaled q count exponent
  ofMultiple (roundDiv numerator denominator) count exponent

/-- The digits without trailing zeros, at least one. -/
def significant (d : Decimal) : List Char :=
  match ((decimalDigits d.digits).reverse.dropWhile (· = '0')).reverse with
  | [] => ['0']
  | kept => kept

/-- The rational that a decimal stands for. -/
def value (d : Decimal) : Rat :=
  (d.digits : Rat) * basePow 10 (d.exponent + 1 - (decimalDigits d.digits).length)

/-- The decisions of a number format: exponents from `-4` up to `plainBelow` are written
positionally, and `pointed` writes whole numbers with `.0`. -/
structure Layout where
  plainBelow : Int
  pointed : Bool

/-- An exponent with its sign and at least two digits. -/
def exponentText (exponent : Int) : List Char :=
  let digits := decimalDigits exponent.natAbs
  (if exponent < 0 then '-' else '+') :: (List.replicate (2 - digits.length) '0' ++ digits)

/-- The text of a positive decimal. -/
def render (layout : Layout) (d : Decimal) : List Char :=
  let digits := d.significant
  if -4 ≤ d.exponent && d.exponent < layout.plainBelow then
    if d.exponent < 0 then
      '0' :: '.' :: (List.replicate (-d.exponent - 1).toNat '0' ++ digits)
    else
      let whole := d.exponent.toNat + 1
      if digits.length ≤ whole then
        digits ++ List.replicate (whole - digits.length) '0' ++
          (if layout.pointed then ['.', '0'] else [])
      else digits.take whole ++ '.' :: digits.drop whole
  else
    match digits with
    | [] => []
    | [digit] => digit :: 'e' :: exponentText d.exponent
    | digit :: rest => digit :: '.' :: (rest ++ 'e' :: exponentText d.exponent)

end Decimal

namespace Double

/-- The text of a double whose positive finite values are written by `positive`, with `zero` for
the zeros. -/
def renderWith (positive : Rat → List Char) (zero : List Char) : Double → String
  | finite value =>
    if value.num = 0 then String.ofList zero
    else if value < 0 then String.ofList ('-' :: positive (-value))
    else String.ofList (positive value)
  | negativeZero => String.ofList ('-' :: zero)
  | infinite negative => if negative then "-inf" else "inf"
  | nan => "nan"

/-- No double has more significant decimal digits than this. -/
def maxSignificantDigits : Nat := 767

/-- The text with `precision` significant digits, trailing zeros dropped: positional while the
exponent is below the precision. -/
def toGeneral (precision : Nat) (d : Double) : String :=
  let count := max precision 1
  d.renderWith (fun q => (Decimal.round q (min count maxSignificantDigits)).render ⟨count, false⟩)
    ['0']

end Double

end EquationText
