import EquationText.Fault
import EquationText.Form
import EquationText.Numeric.Decimal

/-! # The text of numbers and linear forms

Numbers print with a number of significant digits, and what is below the cutoff prints as zero. A
complex number is written as `a`, `b*i`, `a + b*i` or `a - b*i`, and a form as its constant followed
by its terms, joined by plus signs.
-/

namespace EquationText

/-- How numbers are printed: the bound under which they count as zero, and the number of significant
digits. -/
structure Style where
  cutoff : Rat
  precision : Int
deriving DecidableEq

namespace Style

/-- The largest precision that the number format takes, and the largest that can be written down. -/
def maxPrecision : Int := 2147483647

def maxWrittenPrecision : Int := 9223372036854775807

/-- The number of digits of a style, if the number format takes it. -/
def digits (style : Style) : Except Cause Nat :=
  if style.precision < 0 then .error (.usage .missingPrecision)
  else if maxWrittenPrecision < style.precision then .error (.usage .endlessPrecision)
  else if maxPrecision < style.precision then .error (.usage .hugePrecision)
  else .ok style.precision.toNat

/-- The text of a double. -/
def double (style : Style) (d : Double) : Except Cause String :=
  if d.isBelow style.cutoff then .ok "0"
  else do
    let precision ← style.digits
    return d.toGeneral precision

/-- Whether a double differs from a rational by less than the cutoff. -/
def isNear (style : Style) (target : Rat) (d : Double) : Bool :=
  match d.value? with
  | some value => (Double.ofRat (value - target)).isBelow style.cutoff
  | none => false

/-- The text of the multiple `y` of the imaginary unit, where `y` is not negative unless it stands
alone. -/
def imaginary (style : Style) (y : Double) : Except Cause String :=
  if style.isNear 1 y then .ok "i"
  else do
    let text ← style.double y
    return s!"{text}*i"

/-- The text of a complex number given by its parts as doubles. -/
def complex (style : Style) (re im : Double) : Except Cause String :=
  if im.isBelow style.cutoff then style.double re
  else if re.isBelow style.cutoff then
    if style.isNear (-1) im then .ok "-i" else style.imaginary im
  else do
    let real ← style.double re
    if im.isNegative then
      let text ← style.imaginary im.neg
      return s!"{real} - {text}"
    else
      let text ← style.imaginary im
      return s!"{real} + {text}"

/-- The text of a number. -/
def number (style : Style) (a : Number) : Except Cause String :=
  style.complex a.re.toDouble a.im.toDouble

/-- The text of a number as a coefficient: in parentheses when it has two parts. -/
def coefficient (style : Style) (a : Number) : Except Cause String := do
  let text ← style.number a
  if a.re.toDouble.isBelow style.cutoff || a.im.toDouble.isBelow style.cutoff then return text
  else return s!"({text})"

/-- The text of a term, where a coefficient of one is not written; nothing for a negligible
coefficient. -/
def term (style : Style) (name : String) (a : Number) : Except Cause (Option String) :=
  if a.modulusOverflows then .error .modulusRange
  else if a.isNegligible style.cutoff then .ok none
  else if a.isNearOne style.cutoff then .ok (some name)
  else do
    let text ← style.coefficient a
    return some s!"{text}*{name}"

/-- The texts of the terms of a form, in order. -/
def terms (style : Style) (anonymousWord : String) :
    List (Unknown × Number) → Except Cause (List String)
  | [] => .ok []
  | (unknown, a) :: rest => do
    let first ← style.term (unknown.text anonymousWord) a
    let others ← style.terms anonymousWord rest
    return first.toList ++ others

/-- The text of the constant of a form; nothing for a negligible one. -/
def constant (style : Style) (a : Number) : Except Cause (Option String) :=
  if a.modulusOverflows then .error .modulusRange
  else if a.isNegligible style.cutoff then .ok none
  else do
    let text ← style.number a
    return some text

/-- The text of a form: its constant, then its terms. -/
def form (style : Style) (anonymousWord : String) (form : Form) : Except Cause String := do
  let first ← style.constant form.constant
  let others ← style.terms anonymousWord form.terms
  match first.toList ++ others with
  | [] => return "0"
  | parts => return " + ".intercalate parts

end Style

end EquationText
