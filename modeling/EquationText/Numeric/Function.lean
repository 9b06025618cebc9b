import EquationText.Numeric.Power

/-! # Functions

The functions that equations may apply to numbers. A value is exact where the argument is a known
special one; every other value is the principal one, rounded.
-/

namespace EquationText

/-- The functions of one number. -/
inductive NumericFunction
  | abs
  | acos
  | asin
  | atan
  | cos
  | cosDegrees
  | exp
  | log
  | sin
  | sinDegrees
  | sqrt
  | tan
  | tanDegrees
deriving DecidableEq

namespace NumericFunction

/-- The names under which functions are applied, in the order of their code points. -/
def table : List (String × NumericFunction) :=
  [("Abs", abs), ("abs", abs), ("acos", acos), ("asin", asin), ("atan", atan), ("cos", cos),
    ("cosd", cosDegrees), ("exp", exp), ("ln", log), ("log", log), ("sin", sin),
    ("sind", sinDegrees), ("sqrt", sqrt), ("tan", tan), ("tand", tanDegrees)]

/-- The function of a name. -/
def ofName? (name : String) : Option NumericFunction := (table.find? fun entry => entry.1 = name).map (·.2)

/-- The square root of a rational that is not negative, if it is rational. -/
def exactSqrt? (q : Rat) : Option Rat :=
  if q.num = 0 then some 0 else if 0 < q then exactRoot? 2 q else none

/-- The angle of a number of degrees as a multiple of a half turn. -/
def halfTurns : Scalar → Scalar
  | .exact degrees => .exact (degrees / 180)
  | .rounded degrees => (Scalar.rounded degrees).mul (.exact (mkRat 1 180))

/-- A number of half turns reduced to one full turn, from 0 up to 2. -/
def reduceTurn (halfTurns : Rat) : Rat := halfTurns - 2 * ((halfTurns / 2).floor : Rat)

/-- The sine at the given number of half turns, where it is rational. -/
def exactSine? (halfTurns : Rat) : Option Rat :=
  let t := reduceTurn halfTurns
  if t = 0 || t = 1 then some 0
  else if t = mkRat 1 2 then some 1
  else if t = mkRat 3 2 then some (-1)
  else if t = mkRat 1 6 || t = mkRat 5 6 then some (mkRat 1 2)
  else if t = mkRat 7 6 || t = mkRat 11 6 then some (mkRat (-1) 2)
  else none

/-- The cosine at the given number of half turns, where it is rational. -/
def exactCosine? (halfTurns : Rat) : Option Rat := exactSine? (halfTurns + mkRat 1 2)

/-- The tangent at the given number of half turns, where it is rational or has a pole. -/
def exactTangent? (halfTurns : Rat) : Option Outcome :=
  let t := reduceTurn halfTurns
  if t = 0 || t = 1 then some (.rational 0)
  else if t = mkRat 1 2 || t = mkRat 3 2 then some .undefined
  else if t = mkRat 1 4 || t = mkRat 5 4 then some (.rational 1)
  else if t = mkRat 3 4 || t = mkRat 7 4 then some (.rational (-1))
  else none

/-- An angle in degrees as a point in radians; whole turns are dropped first. -/
def radians (a : Number) : Point :=
  let re := (halfTurns a.re).value
  let im := (halfTurns a.im).value
  ⟨reduceTurn re * Elementary.pi, im * Elementary.pi⟩

/-- The value of a function of degrees: special where the angle is real and `special?` knows it. -/
def ofDegrees (special? : Rat → Option Outcome) (near : Point → Option Point) (a : Number) :
    Outcome :=
  let known := if a.im.isZero then special? (halfTurns a.re).value else none
  match known with
  | some outcome => outcome
  | none => .ofPoint? (near (radians a))

/-- The value at zero of a function without a pole there, where it is rational. -/
def atZero? : NumericFunction → Option Rat
  | abs | asin | atan | sin | sqrt | tan => some 0
  | cos | exp => some 1
  | acos | cosDegrees | log | sinDegrees | tanDegrees => none

/-- The value of a function at a number. -/
def apply (function : NumericFunction) (a : Number) : Outcome :=
  match if a.isZero then function.atZero? else none with
  | some value => .rational value
  | none =>
    let point := a.toPoint
    match function with
    | abs =>
      match if a.isExact then exactSqrt? a.normSq else none with
      | some value => .rational value
      | none => .near (.ofRat point.abs)
    | acos => if a.rational? = some 1 then .rational 0 else .near point.acos
    | asin => .near point.asin
    | atan => if point = ⟨0, 1⟩ || point = ⟨0, -1⟩ then .undefined else .near point.atan
    | cos => .ofPoint? point.cos
    | cosDegrees => ofDegrees (fun t => (exactCosine? t).map .rational) Point.cos a
    | exp => .ofPoint? point.exp
    | log =>
      if a.isZero then .undefined
      else if a.rational? = some 1 then .rational 0
      else .near point.ln
    | sin => .ofPoint? point.sin
    | sinDegrees => ofDegrees (fun t => (exactSine? t).map .rational) Point.sin a
    | sqrt =>
      match a.rational?.bind exactSqrt? with
      | some value => .rational value
      | none => .near point.sqrt
    | tan => .ofPoint? point.tan
    | tanDegrees => ofDegrees exactTangent? Point.tan a

end NumericFunction

end EquationText
