import EquationText.Numeric.Rounding

/-! # Double-precision values

A finite double is known by the rational it stands for. Only the zero that prints with a sign needs
a name of its own.
-/

namespace EquationText

/-- A double-precision value. -/
inductive Double
  | finite (value : Rat)
  | negativeZero
  | infinite (negative : Bool)
  | nan
deriving DecidableEq, Inhabited

namespace Double

/-- The smallest magnitude that no double reaches. -/
def overflow : Rat := basePow 2 1024

/-- The smallest magnitude that rounds beyond every finite double. -/
def rangeBound : Rat := overflow - basePow 2 970

/-- The exponent of the unit in the last place of the doubles near `q`. -/
def unitExponent (q : Rat) : Int := max (binaryExponent q - 52) (-1074)

/-- The double nearest to a rational; a tie goes to the even neighbour. -/
def ofRat (q : Rat) : Double :=
  if q.num = 0 then .finite 0
  else
    let nearest := roundToUnit q (unitExponent q)
    if overflow ≤ nearest.abs then .infinite (q < 0)
    else if nearest.num = 0 then (if q < 0 then .negativeZero else .finite 0)
    else .finite nearest

/-- The rational that a finite double stands for. -/
def value? : Double → Option Rat
  | finite value => some value
  | negativeZero => some 0
  | infinite _ | nan => none

def isFinite (d : Double) : Bool := d.value?.isSome

/-- The double with the opposite sign. -/
def neg : Double → Double
  | finite value => if value.num = 0 then negativeZero else finite (-value)
  | negativeZero => finite 0
  | infinite negative => infinite (!negative)
  | nan => nan

/-- Whether the double is below zero; neither zero is, and nor is a value that is no number. -/
def isNegative : Double → Bool
  | finite value => value < 0
  | infinite negative => negative
  | negativeZero | nan => false

/-- Whether the double's magnitude is below `bound`. -/
def isBelow (bound : Rat) (d : Double) : Bool :=
  match d.value? with
  | some value => value.abs < bound
  | none => false

/-- Everything below this bound rounds to a double below `tolerance`: the bound lies half a unit in
the last place under it. Nothing is below a tolerance that is not positive. -/
def cutoff (tolerance : Double) : Rat :=
  match tolerance with
  | finite value =>
    if value ≤ 0 then 0
    else
      let unit := unitExponent value
      let below := if value = basePow 2 (unit + 52) && -1074 < unit then unit - 1 else unit
      value - basePow 2 (below - 1)
  | infinite false => rangeBound
  | _ => 0

end Double

end EquationText
