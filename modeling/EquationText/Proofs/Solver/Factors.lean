import EquationText.Proofs.Form.Gap
import EquationText.Proofs.Solver.Agreement

/-! # How values change between assignments

Between two assignments at which every eliminated unknown changes as its form does, an arithmetic
expression changes as the form does that it evaluates to (`EquationText.Solver.evaluate_gap`), provided
that each number by which evaluation scales a form is the value of its expression. This is so where the
eliminated unknowns have the values of their forms (`EquationText.Solver.Agrees.factorsStand`).
-/

namespace EquationText

variable {first second : Assignment}

namespace Value

/-- How far apart a value is at two assignments. -/
noncomputable def gap (first second : Assignment) (value : Value) : ℂ :=
  value.value first - value.value second

/-- Whether of two operands one that is a number, while the other is not, has its value: `x` for the
one, `y` for the other. -/
def StandFor (assignment : Assignment) (a b : Value) (x y : ℂ) : Prop :=
  (a.isConstant = true → b.isConstant = false → a.value assignment = x) ∧
    (b.isConstant = true → a.isConstant = false → b.value assignment = y)

variable {a b t result way : Value} {cutoff : Rat} {x x' y y' z z' : ℂ}

theorem gap_of_isConstant (constant : a.isConstant = true) : a.gap first second = 0 := by
  cases a with
  | form f => exact Form.gap_of_isConstant constant
  | infinite => exact sub_self _

theorem gap_neg (exact : a.IsExact) : a.neg.gap first second = -a.gap first second := by
  obtain ⟨_, value⟩ := neg_exact exact
  rw [gap, value, value, gap]
  ring

/-- A product of values has one that is a number. -/
theorem isConstant_of_mul (ok : a.mul b = .ok result) :
    a.isConstant = true ∨ b.isConstant = true := by
  cases a with
  | infinite => exact .inl rfl
  | form f =>
      cases b with
      | infinite => exact .inr rfl
      | form g =>
          by_contra neither
          obtain ⟨left, right⟩ := not_or.mp neither
          simp only [isConstant] at left right
          rw [mul, if_neg left, if_neg right] at ok
          cases ok

section Operations

variable (left : a.IsExact) (right : b.IsExact)
include left right

theorem isConstant_of_div (positive : 0 < cutoff) (ok : a.div cutoff b = .ok result) :
    b.isConstant = true := by
  cases a with
  | infinite => cases left
  | form f =>
      cases b with
      | infinite => cases right
      | form g => exact (div_form_eq_ok positive ok).1

theorem gap_add (ok : a.add b = .ok result) :
    result.gap first second = a.gap first second + b.gap first second := by
  obtain ⟨_, value⟩ := add_exact left right ok
  rw [gap, value, value, gap, gap]
  ring

theorem gap_sub (ok : a.sub b = .ok result) :
    result.gap first second = a.gap first second - b.gap first second := by
  obtain ⟨_, value⟩ := sub_exact left right ok
  rw [gap, value, value, gap, gap]
  ring

end Operations

section Factors

variable (one : x - x' = a.gap first second) (other : y - y' = b.gap first second)
include one other

/-- Products whose first factor is a number change as the products of the values do, if the number has its value at
the first assignment or the other factor is a number, too. -/
theorem mul_sub_mul_of_isConstant (constant : a.isConstant = true)
    (number : b.isConstant = false → a.value first = x) :
    x * y - x' * y' =
      a.value first * b.value first - a.value second * b.value second := by
  have same : a.gap first second = 0 := gap_of_isConstant constant
  rw [same] at one
  rw [gap] at same
  by_cases both : b.isConstant = true
  · have still : b.gap first second = 0 := gap_of_isConstant both
    rw [still] at other
    rw [gap] at still
    linear_combination y * one + x' * other - b.value first * same - a.value second * still
  · have value := number (Bool.eq_false_of_not_eq_true both)
    rw [gap] at other
    linear_combination y' * one + x * other - b.value second * same -
      (b.value first - b.value second) * value

variable (left : a.IsExact) (right : b.IsExact) (stand : StandFor first a b x y)
include left right stand

/-- A product changes as the product of the values of its operands does, provided that an operand that
is a number has its value. -/
theorem gap_mul (ok : a.mul b = .ok result) : x * y - x' * y' = result.gap first second := by
  obtain ⟨_, value⟩ := mul_exact left right ok
  rw [gap, value, value]
  rcases isConstant_of_mul ok with constant | constant
  · exact mul_sub_mul_of_isConstant one other constant (stand.1 constant)
  · rw [mul_comm x, mul_comm x', mul_comm (a.value first), mul_comm (a.value second)]
    exact mul_sub_mul_of_isConstant other one constant (stand.2 constant)

/-- A quotient changes as the quotient of the values does, where the divisor has its value. -/
theorem gap_div (positive : 0 < cutoff) (ok : a.div cutoff b = .ok result) :
    x / y - x' / y' = result.gap first second := by
  obtain ⟨_, value⟩ := div_exact left right positive ok
  have constant := isConstant_of_div left right positive ok
  have same : b.gap first second = 0 := gap_of_isConstant constant
  rw [same, sub_eq_zero] at other
  rw [gap, sub_eq_zero] at same
  rw [gap, (value first).2, (value second).2, ← same, ← other, ← sub_div, ← sub_div, one, gap]
  by_cases both : a.isConstant = true
  · have still : a.gap first second = 0 := gap_of_isConstant both
    rw [gap] at still
    rw [still, zero_div, zero_div]
  · rw [stand.2 constant (Bool.eq_false_of_not_eq_true both)]

end Factors

/-- A mediation changes as the point between the values of its operands does. -/
theorem gap_mediate {t a b : Operand} (part : t.value.IsExact) (left : a.value.IsExact) (right : b.value.IsExact)
    (ok : Solver.mediate t a b = .ok result) (share : z - z' = t.value.gap first second)
    (one : x - x' = a.value.gap first second) (other : y - y' = b.value.gap first second)
    (stand : ∀ way, b.value.sub a.value = .ok way → StandFor first t.value way z (y - x)) :
    x + z * (y - x) - (x' + z' * (y' - x')) = result.gap first second := by
  obtain ⟨way, product, difference, multiplication, addition⟩ := mediate_eq_ok ok
  obtain ⟨wayExact, _⟩ := sub_exact right left difference
  obtain ⟨productExact, _⟩ := mul_exact part wayExact multiplication
  have apart : (y - x) - (y' - x') = way.gap first second := by
    rw [gap_sub right left difference, ← one, ← other]
    ring
  rw [gap_add left productExact addition, ← one,
    ← gap_mul share apart part wayExact (stand way difference) multiplication]
  ring

/-- Every operation of arithmetic changes from one assignment to another as its value does. -/
theorem gap_operate {operator : Operator} (arithmetic : operator.isArithmetic = true)
    (positive : 0 < cutoff) (left : a.IsExact) (right : b.IsExact)
    (ok : Solver.operate cutoff operator a b = .ok result)
    (one : x - x' = a.gap first second) (other : y - y' = b.gap first second)
    (stand : operator = .product ∨ operator = .quotient → StandFor first a b x y)
    (value : operator.value? x y = some z) (value' : operator.value? x' y' = some z') :
    z - z' = result.gap first second := by
  cases operator with
  | sum =>
      cases value
      cases value'
      rw [gap_add left right ok, ← one, ← other]
      ring
  | difference =>
      cases value
      cases value'
      rw [gap_sub left right ok, ← one, ← other]
      ring
  | product =>
      cases value
      cases value'
      exact gap_mul one other left right (stand (.inl rfl)) ok
  | quotient =>
      have quotient := gap_div one other left right (stand (.inr rfl)) positive ok
      simp only [Operator.value?, Option.ite_none_left_eq_some, Option.some.injEq] at value value'
      rw [← value.2, ← value'.2, quotient]
  | exponentiation => cases arithmetic
  | equation => cases arithmetic
  | negation => cases arithmetic
  | application => cases arithmetic
  | mediation => cases arithmetic

end Value

namespace Solver

variable {settings : Settings} {solver before after : Solver} {assignment : Assignment}

/-- Whether an expression evaluates to a value and has a value of arithmetic at an assignment. -/
def Means (settings : Settings) (assignment : Assignment) (solver : Solver) (expr : Expr)
    (start : Nat) (value : Value) (z : ℂ) : Prop :=
  (∃ finish, (solver.evaluate settings expr).run start = .ok (value, finish)) ∧
    expr.value? assignment start = some z

/-- Whether the operands of products, quotients and mediations that evaluate to numbers, while what they
scale does not, have these values at an assignment. -/
def FactorsStand (settings : Settings) (assignment : Assignment) (solver : Solver) :
    Expr → Nat → Prop
  | .named _, _ | .anonymous, _ | .number _, _ | .application _ _, _ => True
  | .negation operand, start => FactorsStand settings assignment solver operand start
  | .mediation condition consequent alternative, start =>
    let middle := start + condition.anonymousCount
    let last := middle + consequent.anonymousCount
    FactorsStand settings assignment solver condition start ∧
      FactorsStand settings assignment solver consequent middle ∧
      FactorsStand settings assignment solver alternative last ∧
      ∀ t a b way x y z, solver.Means settings assignment condition start t z →
        solver.Means settings assignment consequent middle a x →
        solver.Means settings assignment alternative last b y →
        b.sub a = .ok way → t.StandFor assignment way z (y - x)
  | .binary operator left right, start =>
    let middle := start + left.anonymousCount
    FactorsStand settings assignment solver left start ∧
      FactorsStand settings assignment solver right middle ∧
      (operator = .product ∨ operator = .quotient →
        ∀ a b x y, solver.Means settings assignment left start a x →
          solver.Means settings assignment right middle b y → a.StandFor assignment b x y)

/-- Whether every eliminated unknown changes from one assignment to another as its form does. -/
def MovesAlong (first second : Assignment) (solver : Solver) : Prop :=
  ∀ entry ∈ solver.known, first entry.1 - second entry.1 = entry.2.gap first second

section Meaning

variable (positive : 0 < settings.cutoff) (exact : solver.IsExact)
  (agrees : solver.Agrees assignment) {expr : Expr} (arithmetic : expr.isArithmetic = true)
  {start : Nat}
include positive exact agrees arithmetic

theorem Means.value_eq {value : Value} {z : ℂ}
    (means : solver.Means settings assignment expr start value z) :
    value.IsExact ∧ value.value assignment = z := by
  obtain ⟨⟨finish, run⟩, here⟩ := means
  obtain ⟨valueExact, meaning⟩ := evaluate_exact positive exact arithmetic run
  exact ⟨valueExact, Option.some.inj ((meaning assignment agrees).symm.trans here)⟩

/-- Where the eliminated unknowns have the values of their forms, so have all factors. -/
theorem Agrees.factorsStand : solver.FactorsStand settings assignment expr start := by
  induction expr generalizing start with
  | named name => trivial
  | anonymous => trivial
  | number d => trivial
  | negation operand ih => exact ih arithmetic
  | application callee argument _ _ => trivial
  | mediation condition consequent alternative share low high =>
      simp only [Expr.isArithmetic, Bool.and_eq_true] at arithmetic
      refine ⟨share arithmetic.1.1, low arithmetic.1.2, high arithmetic.2, ?_⟩
      intro t a b way x y z part left right difference
      obtain ⟨_, rfl⟩ := part.value_eq positive exact agrees arithmetic.1.1
      obtain ⟨leftExact, rfl⟩ := left.value_eq positive exact agrees arithmetic.1.2
      obtain ⟨rightExact, rfl⟩ := right.value_eq positive exact agrees arithmetic.2
      exact ⟨fun _ _ => rfl,
        fun _ _ => (Value.sub_exact rightExact leftExact difference).2 assignment⟩
  | binary operator leftExpr rightExpr low high =>
      simp only [Expr.isArithmetic, Bool.and_eq_true] at arithmetic
      refine ⟨low arithmetic.1.2, high arithmetic.2, fun _ a b x y left right => ?_⟩
      obtain ⟨_, rfl⟩ := left.value_eq positive exact agrees arithmetic.1.2
      obtain ⟨_, rfl⟩ := right.value_eq positive exact agrees arithmetic.2
      exact ⟨fun _ _ => rfl, fun _ _ => rfl⟩

omit arithmetic in
theorem Agrees.factorsStand_equation (arithmetic : expr.isArithmeticEquation = true) :
    solver.FactorsStand settings assignment expr start := by
  cases expr with
  | binary operator left right =>
      cases operator with
      | equation =>
          simp only [Expr.isArithmeticEquation, Bool.and_eq_true] at arithmetic
          exact ⟨agrees.factorsStand positive exact arithmetic.1,
            agrees.factorsStand positive exact arithmetic.2, by simp⟩
      | _ => cases arithmetic
  | _ => cases arithmetic

end Meaning

theorem MovesAlong.gap_formOf (moves : solver.MovesAlong first second) (unknown : Unknown) :
    (solver.formOf unknown).gap first second = first unknown - second unknown := by
  unfold formOf
  cases found : valueOf? unknown solver.known with
  | some form => exact (moves _ (mem_of_valueOf?_eq_some found)).symm
  | none => exact Form.gap_ofUnknown unknown

/-- An expression changes from one assignment to another as its value does, if the eliminated unknowns change as
their forms do and the factors that are numbers have their values at the first. -/
theorem evaluate_gap (positive : 0 < settings.cutoff) (exact : solver.IsExact)
    (moves : solver.MovesAlong first second) {expr : Expr}
    (arithmetic : expr.isArithmetic = true) {value : Value} {start finish : Nat}
    (ok : (solver.evaluate settings expr).run start = .ok (value, finish))
    (factors : solver.FactorsStand settings first expr start) {z z' : ℂ}
    (one : expr.value? first start = some z) (other : expr.value? second start = some z') :
    z - z' = value.gap first second := by
  induction expr generalizing value start finish z z' with
  | named name =>
      obtain ⟨rfl, rfl⟩ := evaluate_named ok
      cases one
      cases other
      exact (moves.gap_formOf _).symm
  | anonymous =>
      obtain ⟨rfl, rfl⟩ := evaluate_anonymous ok
      cases one
      cases other
      exact (Form.gap_ofUnknown _).symm
  | number d =>
      obtain ⟨q, read, rfl, rfl⟩ := evaluate_number ok
      cases Option.some.inj (one.symm.trans other)
      exact (sub_self z).trans (Form.gap_of_isConstant rfl).symm
  | negation operand ih =>
      obtain ⟨a, run, rfl⟩ := evaluate_negation ok
      obtain ⟨x, here, rfl⟩ := Option.map_eq_some_iff.mp one
      obtain ⟨x', there, rfl⟩ := Option.map_eq_some_iff.mp other
      have inner : operand.isArithmetic = true := arithmetic
      have operandExact := (evaluate_exact positive exact inner run).1
      rw [Value.gap_neg operandExact, ← ih inner run factors here there]
      ring
  | application callee argument _ _ => cases arithmetic
  | mediation condition consequent alternative share low high =>
      simp only [Expr.isArithmetic, Bool.and_eq_true] at arithmetic
      obtain ⟨t, middle, a, later, b, conditionRun, consequentRun, alternativeRun, mediated⟩ :=
        evaluate_mediation ok
      cases evaluate_created conditionRun
      cases evaluate_created consequentRun
      obtain ⟨conditionFactors, consequentFactors, alternativeFactors, stand⟩ := factors
      obtain ⟨w, x, y, conditionHere, consequentHere, alternativeHere, rfl⟩ := Expr.value?_mediation_eq_some one
      obtain ⟨w', x', y', conditionThere, consequentThere, alternativeThere, rfl⟩ :=
        Expr.value?_mediation_eq_some other
      exact Value.gap_mediate (evaluate_exact positive exact arithmetic.1.1 conditionRun).1
        (evaluate_exact positive exact arithmetic.1.2 consequentRun).1
        (evaluate_exact positive exact arithmetic.2 alternativeRun).1 mediated
        (share arithmetic.1.1 conditionRun conditionFactors conditionHere conditionThere)
        (low arithmetic.1.2 consequentRun consequentFactors consequentHere consequentThere)
        (high arithmetic.2 alternativeRun alternativeFactors alternativeHere alternativeThere)
        fun way difference => stand t.value a.value b.value way x y w ⟨⟨_, conditionRun⟩, conditionHere⟩
          ⟨⟨_, consequentRun⟩, consequentHere⟩ ⟨⟨_, alternativeRun⟩, alternativeHere⟩ difference
  | binary operator leftExpr rightExpr low high =>
      simp only [Expr.isArithmetic, Bool.and_eq_true] at arithmetic
      obtain ⟨a, middle, b, leftRun, rightRun, operated⟩ := evaluate_binary ok
      cases evaluate_created leftRun
      obtain ⟨leftFactors, rightFactors, stand⟩ := factors
      obtain ⟨x, y, leftHere, rightHere, one⟩ := Expr.value?_binary_eq_some one
      obtain ⟨x', y', leftThere, rightThere, other⟩ := Expr.value?_binary_eq_some other
      exact Value.gap_operate arithmetic.1.1 positive
        (evaluate_exact positive exact arithmetic.1.2 leftRun).1
        (evaluate_exact positive exact arithmetic.2 rightRun).1 operated
        (low arithmetic.1.2 leftRun leftFactors leftHere leftThere)
        (high arithmetic.2 rightRun rightFactors rightHere rightThere)
        (fun scales => stand scales a b x y ⟨⟨_, leftRun⟩, leftHere⟩ ⟨⟨_, rightRun⟩, rightHere⟩)
        one other

/-- The sides of an equation that two assignments satisfy are equally far apart at both. -/
theorem sides_gap (positive : 0 < settings.cutoff) (exact : solver.IsExact)
    (moves : solver.MovesAlong first second) {equation : Expr}
    (arithmetic : equation.isArithmeticEquation = true) {left right : Value} {created : Nat}
    (ok : solver.sides settings equation = .ok (left, right, created))
    (factors : solver.FactorsStand settings first equation solver.created)
    (one : equation.Holds first solver.created) (other : equation.Holds second solver.created) :
    left.gap first second = right.gap first second := by
  obtain ⟨leftExpr, rightExpr, middle, rfl, leftRun, rightRun⟩ := sides_eq_ok ok
  cases evaluate_created leftRun
  simp only [Expr.isArithmeticEquation, Bool.and_eq_true] at arithmetic
  obtain ⟨leftFactors, rightFactors, _⟩ := factors
  obtain ⟨z, leftHere, rightHere⟩ := one
  obtain ⟨z', leftThere, rightThere⟩ := other
  rw [← evaluate_gap positive exact moves arithmetic.1 leftRun leftFactors leftHere leftThere,
    ← evaluate_gap positive exact moves arithmetic.2 rightRun rightFactors rightHere rightThere]

end Solver

end EquationText
