import EquationText.Engine
import EquationText.Solver.Evaluate

/-! # Solving equations

An equation is solved by eliminating the unknown with the largest coefficient: its form is recorded,
and then put into every form that mentions it. An unknown whose form becomes a constant is solved.
-/

namespace EquationText

namespace Number

/-- The text of an exact number or of a rounded one to fifteen digits, as a log entry shows it. -/
def toRationalText (a : Number) : String :=
  let ratio (q : Rat) (unit : String) : String :=
    let top := if unit = "" then toString q.num
      else if q.num = 1 then unit else if q.num = -1 then s!"-{unit}" else s!"{q.num}*{unit}"
    if q.den = 1 then top else s!"{top}/{q.den}"
  let part (s : Scalar) (unit : String) : String :=
    match s with
    | .exact q => ratio q unit
    | .rounded q =>
      let digits := (Double.ofRat q).toGeneral 15
      if unit = "" then digits else s!"{digits}*{unit}"
  let real := part a.re ""
  if a.im.isZero then real
  else if a.re.isZero then part a.im "I"
  else if a.im.value < 0 then
    let imaginary := part a.im.neg "I"
    s!"{real} - {imaginary}"
  else
    let imaginary := part a.im "I"
    s!"{real} + {imaginary}"

end Number

namespace Form

/-- The term with the largest coefficient, by its larger part as a double; the first one of equals.
Coefficients that vanish as doubles are passed over. -/
def pivotFrom (best : Option (Unknown × Number)) : List (Unknown × Number) →
    Option (Unknown × Number)
  | [] => best
  | term :: rest =>
    let size := term.2.magnitude
    let bestSize := match best with
      | some found => found.2.magnitude
      | none => 0
    if bestSize < size then pivotFrom (some term) rest else pivotFrom best rest

/-- The term of a form that is eliminated next. -/
def pivot? (form : Form) : Option (Unknown × Number) := pivotFrom none form.terms

/-- The form of an unknown for which `form` vanishes, where `factor` is its coefficient. -/
def solvedFor (form : Form) (unknown : Unknown) (factor : Number) : Form :=
  ((form.erase unknown).neg).div factor

end Form

namespace Solver

/-- A form without what counts as zero; the moduli of its coefficients have to be within the range of
doubles. -/
def simplified (settings : Settings) (form : Form) : Except Cause Form :=
  if form.someModulusOverflows then .error .modulusRange else .ok (form.simplify settings.cutoff)

/-- The text of a value. -/
def describeValue (settings : Settings) (solver : Solver) : Value → Except Cause String
  | .form form => (solver.style settings).form settings.anonymousWord form
  | .infinite => .ok "nan + nan*i"

/-- Reports the form of an unknown, if forms are reported. -/
def reportForm (settings : Settings) (unknown : Unknown) (form : Form) : Action Solver Unit := do
  let solver ← Action.get
  if solver.verbose then do
    let text ← Action.ofExcept ((solver.style settings).form settings.anonymousWord form)
    Action.report .info .engine s!"{unknown.text settings.anonymousWord} is {text}"
  else pure ()

/-- Counts a named unknown as solved if its form is a constant. -/
def markSolved (form : Form) : Unknown → Action Solver Unit
  | .anonymous _ => pure ()
  | .named name =>
    if form.isConstant then do
      Action.modify fun solver => { solver with solved := place name form.constant solver.solved }
      Action.report .debug .engine s!"solved {name} = {form.constant.toRationalText}"
    else pure ()

/-- Records the form of an unknown, which is solved if the form is a constant. -/
def record (settings : Settings) (unknown : Unknown) (form : Form) : Action Solver Unit :=
  if form.isConstant && !form.constant.isFinite then
    Action.failWith (.solving (.valueRange (unknown.text settings.anonymousWord)))
  else do
    Action.modify fun solver => { solver with known := place unknown form solver.known }
    reportForm settings unknown form
    markSolved form unknown

/-- Puts the form of an eliminated unknown into the form of another one, if that mentions it. -/
def substituteOne (settings : Settings) (unknown : Unknown) (solution : Form)
    (entry : Unknown × Form) : Action Solver Unit :=
  if entry.2.mentions unknown then do
    let changed ← Action.ofExcept (simplified settings (entry.2.substitute unknown solution))
    record settings entry.1 changed
  else pure ()

/-- Puts the form of an eliminated unknown into every form that mentions it. -/
def substituteAll (settings : Settings) (unknown : Unknown) (solution : Form) :
    List (Unknown × Form) → Action Solver Unit
  | [] => pure ()
  | entry :: rest => do
    substituteOne settings unknown solution entry
    substituteAll settings unknown solution rest

/-- The unknown to eliminate from a form that is to vanish, with its form in the other unknowns. -/
def pivotStep (settings : Settings) (difference : Form) : Except Cause (Unknown × Form) := do
  let form ← simplified settings difference
  if form.isConstant then
    if form.constant.modulusOverflows then .error .modulusRange
    else if form.constant.isNegligible settings.cutoff then .error (.solving .redundant)
    else .error (.solving .inconsistent)
  else
    match form.pivot? with
    | none => .error .noPivot
    | some (unknown, factor) => do
      let solution ← simplified settings (form.solvedFor unknown factor)
      return (unknown, solution)

/-- Records the form of an eliminated unknown and puts it into the other forms. -/
def install (settings : Settings) (unknown : Unknown) (solution : Form) : Action Solver Unit := do
  record settings unknown solution
  let solver ← Action.get
  substituteAll settings unknown solution solver.known

/-- Takes in that a form vanishes. -/
def eliminate (settings : Settings) (difference : Form) : Action Solver Unit := do
  let (unknown, solution) ← Action.ofExcept (pivotStep settings difference)
  install settings unknown solution

/-- Takes in that two values are equal. -/
def equate (settings : Settings) (left right : Value) : Action Solver Unit :=
  match left, right with
  | .form f, .form g => eliminate settings (f.sub g)
  | _, _ => Action.failWith (.solving .inconsistent)

/-- The value of an expression in the current state. -/
def valueOf (settings : Settings) (expr : Expr) : Action Solver Value := do
  let solver ← Action.get
  let (value, created) ← Action.ofExcept ((solver.evaluate settings expr).run solver.created)
  Action.modify fun solver => { solver with created }
  return value

/-- Reports an equation by the values of its sides, if equations are reported. -/
def reportEquation (settings : Settings) (left right : Value) : Action Solver Unit := do
  let solver ← Action.get
  if solver.verbose then do
    let leftText ← Action.ofExcept (solver.describeValue settings left)
    let rightText ← Action.ofExcept (solver.describeValue settings right)
    Action.report .info .engine s!"{leftText} = {rightText}"
  else pure ()

/-- The solved names that an earlier state of the solver had not solved. -/
def newNames (before after : Solver) : List String :=
  (after.solved.map (·.1)).filter fun name => !(before.solved.any fun entry => entry.1 = name)

/-- Solves an equation, and gives the names it determined with their texts. -/
def solve (settings : Settings) (equation : Expr) : Action Solver (List Binding) :=
  match equation with
  | .binary .equation left right => do
    Action.report .debug .engine s!"solving {equation.toText}"
    let leftValue ← valueOf settings left
    let rightValue ← valueOf settings right
    reportEquation settings leftValue rightValue
    let before ← Action.get
    equate settings leftValue rightValue
    let after ← Action.get
    Action.ofExcept (after.translateAll settings (newNames before after))
  | _ => Action.failWith (.solving .notAnEquation)

end Solver

end EquationText
