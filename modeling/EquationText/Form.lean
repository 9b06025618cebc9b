import EquationText.Numeric.Number

/-! # Linear forms

A linear form is a constant plus a sum of unknowns with coefficients. The terms are kept in the order
of their unknowns, and a term whose coefficient vanishes is dropped, so a form is constant exactly
when it has no terms.
-/

namespace EquationText

/-- An unknown of the equations: an unnamed one by the order of its creation, or a named one. -/
inductive Unknown
  | anonymous (serial : Nat)
  | named (name : String)
deriving DecidableEq

namespace Unknown

/-- The unnamed unknowns come first, by creation; the named ones follow by the code points of their
names. -/
def before : Unknown → Unknown → Bool
  | anonymous a, anonymous b => a < b
  | anonymous _, named _ => true
  | named _, anonymous _ => false
  | named a, named b => a < b

/-- The text of an unknown; the unnamed ones all print alike. -/
def text (anonymousWord : String) : Unknown → String
  | anonymous _ => "_" ++ anonymousWord
  | named name => name

end Unknown

/-- A linear form: a constant and terms in the order of their unknowns. -/
structure Form where
  constant : Number
  terms : List (Unknown × Number)
deriving DecidableEq, Inhabited

namespace Form

def ofNumber (a : Number) : Form := ⟨a, []⟩

def ofRat (q : Rat) : Form := ofNumber (.ofRat q)

def ofUnknown (unknown : Unknown) : Form := ⟨.zero, [(unknown, .one)]⟩

/-- Whether the form mentions no unknown. -/
def isConstant (form : Form) : Bool := form.terms.isEmpty

/-- The coefficient of an unknown, zero when it is not mentioned. -/
def coefficient (form : Form) (unknown : Unknown) : Number :=
  match form.terms.find? fun term => term.1 = unknown with
  | some term => term.2
  | none => .zero

/-- Whether the form mentions an unknown. -/
def mentions (form : Form) (unknown : Unknown) : Bool :=
  form.terms.any fun term => term.1 = unknown

/-- Puts a term in front unless its coefficient vanishes. -/
def consTerm (unknown : Unknown) (coefficient : Number) (terms : List (Unknown × Number)) :
    List (Unknown × Number) :=
  if coefficient.isZero then terms else (unknown, coefficient) :: terms

/-- The sum of two ordered lists of terms. -/
def addTerms : List (Unknown × Number) → List (Unknown × Number) → List (Unknown × Number)
  | [], second => second
  | first, [] => first
  | (u, a) :: first, (v, b) :: second =>
    if u = v then consTerm u (a.add b) (addTerms first second)
    else if u.before v then (u, a) :: addTerms first ((v, b) :: second)
    else (v, b) :: addTerms ((u, a) :: first) second
termination_by first second => first.length + second.length

/-- Each coefficient multiplied by a number. -/
def scaleTerms (factor : Number) : List (Unknown × Number) → List (Unknown × Number)
  | [] => []
  | (unknown, a) :: rest => consTerm unknown (a.mul factor) (scaleTerms factor rest)

def add (a b : Form) : Form := ⟨a.constant.add b.constant, addTerms a.terms b.terms⟩

def scale (factor : Number) (form : Form) : Form :=
  ⟨form.constant.mul factor, scaleTerms factor form.terms⟩

/-- The quotient of a form by a number other than zero. A constant is divided; the numbers of other forms are
multiplied by the reciprocal. -/
def div (form : Form) (divisor : Number) : Form :=
  if form.isConstant then ofNumber (form.constant.div divisor) else form.scale divisor.inv

def neg (form : Form) : Form :=
  ⟨form.constant.neg, form.terms.map fun term => (term.1, term.2.neg)⟩

def sub (a b : Form) : Form := add a b.neg

/-- The form without the term of an unknown. -/
def erase (unknown : Unknown) (form : Form) : Form :=
  ⟨form.constant, form.terms.filter fun term => term.1 ≠ unknown⟩

/-- The form with an unknown replaced by a form. -/
def substitute (form : Form) (unknown : Unknown) (value : Form) : Form :=
  if form.mentions unknown then
    (form.erase unknown).add (value.scale (form.coefficient unknown))
  else form

/-- Whether every part of every number in the form lies within the range of doubles. -/
def isFinite (form : Form) : Bool :=
  form.constant.isFinite && form.terms.all fun term => term.2.isFinite

/-- Whether the modulus of some coefficient is beyond the range of doubles while its parts are
within. -/
def someModulusOverflows (form : Form) : Bool :=
  form.terms.any fun term => term.2.modulusOverflows

/-- The terms without those of negligible coefficient, the other coefficients chopped. -/
def simplifyTerms (cutoff : Rat) : List (Unknown × Number) → List (Unknown × Number)
  | [] => []
  | (unknown, a) :: rest =>
    if a.isNegligible cutoff then simplifyTerms cutoff rest
    else consTerm unknown (a.chop cutoff) (simplifyTerms cutoff rest)

/-- The form without what counts as zero: terms of negligible coefficient, and real or imaginary
parts below the cutoff. -/
def simplify (cutoff : Rat) (form : Form) : Form :=
  ⟨form.constant.chop cutoff, simplifyTerms cutoff form.terms⟩

end Form

end EquationText
