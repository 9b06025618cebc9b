import EquationText.Numeric.Decimal

/-! # The shortest decimal that reads back

Among the decimals that round to a given double, the one with the fewest digits is chosen, and of
those the one nearest to the double.
-/

namespace EquationText

namespace Decimal

/-- The decimals with `count` digits around a positive rational, the nearer one first. -/
def neighbours (q : Rat) (count : Nat) : List Decimal :=
  let exponent := decimalExponent q
  let (numerator, denominator) := scaled q count exponent
  let nearest := roundDiv numerator denominator
  let floor := numerator / denominator
  let other := if nearest = floor then floor + 1 else floor
  [ofMultiple nearest count exponent, ofMultiple other count exponent]

/-- The first decimal with at least `count` digits that rounds to the double `.finite q`; with no
more than `attempts` lengths left to try, the decimal of the last length. -/
def shortestFrom (q : Rat) (count : Nat) : (attempts : Nat) → Decimal
  | 0 => round q count
  | attempts + 1 =>
    match (neighbours q count).find? (fun d => decide (Double.ofRat d.value = .finite q)) with
    | some decimal => decimal
    | none => shortestFrom q (count + 1) attempts

/-- The shortest decimal that reads back as the positive double of value `q`; seventeen digits
always do. -/
def shortest (q : Rat) : Decimal := shortestFrom q 1 16

end Decimal

namespace Double

/-- The shortest text that reads back as the double, positional up to sixteen digits. -/
def toShortest (d : Double) : String :=
  d.renderWith (fun q => (Decimal.shortest q).render ⟨16, true⟩) ['0', '.', '0']

/-- The rational written by the shortest text of a finite double. -/
def shortestValue? : Double → Option Rat
  | finite value =>
    some (if value.num = 0 then 0
      else if value < 0 then -(Decimal.shortest (-value)).value
      else (Decimal.shortest value).value)
  | negativeZero => some 0
  | infinite _ | nan => none

end Double

end EquationText
