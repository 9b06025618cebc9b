import EquationText.Proofs.Expr.Denotation
import EquationText.Proofs.Solver.Reduced

/-! # Assignments that agree with a solver

An assignment agrees with a solver when every eliminated unknown has the value of its form there. What
evaluation gives for an arithmetic expression has the value of the expression at every such assignment
(`EquationText.Solver.evaluate_exact`). An accepted equation leaves exactly those assignments that
agreed before and satisfy the equation (`EquationText.Solver.agrees_accept_iff`), among those at which
what is dropped because it counts as zero has the value zero.
-/

namespace EquationText

namespace Value

/-- Whether a value is an exact form. -/
def IsExact : Value → Prop
  | form f => f.IsExact
  | infinite => False

/-- What a value comes to at an assignment. -/
noncomputable def value (assignment : Assignment) : Value → ℂ
  | form f => f.value assignment
  | infinite => 0

variable {a b t result : Value} {cutoff : Rat}

theorem neg_exact (exact : a.IsExact) :
    a.neg.IsExact ∧ ∀ assignment, a.neg.value assignment = -a.value assignment := by
  cases a with
  | infinite => cases exact
  | form f => exact ⟨Form.IsExact.neg exact, fun _ => Form.value_neg f⟩

section Operations

variable (first : a.IsExact) (second : b.IsExact)
include first second

theorem add_exact (ok : a.add b = .ok result) :
    result.IsExact ∧
      ∀ assignment, result.value assignment = a.value assignment + b.value assignment := by
  cases a with
  | infinite => cases first
  | form f =>
      cases b with
      | infinite => cases second
      | form g =>
          cases ok
          exact ⟨Form.IsExact.add first second, fun _ => Form.value_add first second⟩

theorem sub_exact (ok : a.sub b = .ok result) :
    result.IsExact ∧
      ∀ assignment, result.value assignment = a.value assignment - b.value assignment := by
  obtain ⟨negated, value⟩ := neg_exact second
  obtain ⟨exact, sum⟩ := add_exact first negated ok
  refine ⟨exact, fun assignment => ?_⟩
  rw [sum, value, sub_eq_add_neg]

/-- A product of exact values is exact and has the product of their values: one of the factors is a number. -/
theorem mul_exact (ok : a.mul b = .ok result) :
    result.IsExact ∧
      ∀ assignment, result.value assignment = a.value assignment * b.value assignment := by
  cases a with
  | infinite => cases first
  | form f =>
      cases b with
      | infinite => cases second
      | form g =>
          by_cases leftConstant : f.isConstant = true
          · rw [mul, if_pos leftConstant] at ok
            cases ok
            refine ⟨Form.IsExact.scale second first.constant, fun assignment => ?_⟩
            simp only [value, Form.value_scale second first.constant,
              Form.value_of_isConstant leftConstant, mul_comm]
          · by_cases rightConstant : g.isConstant = true
            · rw [mul, if_neg leftConstant, if_pos rightConstant] at ok
              cases ok
              refine ⟨Form.IsExact.scale first second.constant, fun assignment => ?_⟩
              simp only [value, Form.value_scale first second.constant,
                Form.value_of_isConstant rightConstant]
            · rw [mul, if_neg leftConstant, if_neg rightConstant] at ok
              cases ok

omit first second in
/-- A divisor of a form is a constant that does not count as zero. -/
theorem div_form_eq_ok {f g : Form} (positive : 0 < cutoff)
    (ok : (form f).div cutoff (form g) = .ok result) :
    g.isConstant = true ∧ ¬ g.constant.isNegligible cutoff = true ∧
      result = form (f.div g.constant) := by
  unfold div at ok
  by_cases constant : g.isConstant = true
  · by_cases beyond : g.constant.modulusOverflows = true
    · simp [constant, beyond] at ok
    · by_cases negligible : g.constant.isNegligible cutoff = true
      · simp [constant, beyond, negligible] at ok
      · have nonzero : ¬ g.constant.isZero = true := fun zero =>
          negligible (Number.isNegligible_of_toComplex_eq_zero positive
            ((Number.isZero_iff _).mp zero))
        simp only [constant, beyond, negligible, nonzero, Bool.not_true, Bool.false_eq_true,
          ↓reduceIte] at ok
        cases ok
        exact ⟨constant, negligible, rfl⟩
  · simp [constant] at ok

/-- A quotient that evaluation gives is a quotient by a number other than zero. -/
theorem div_exact (positive : 0 < cutoff) (ok : a.div cutoff b = .ok result) :
    result.IsExact ∧ ∀ assignment, b.value assignment ≠ 0 ∧
      result.value assignment = a.value assignment / b.value assignment := by
  cases a with
  | infinite => cases first
  | form f =>
      cases b with
      | infinite => cases second
      | form g =>
          obtain ⟨constant, counts, rfl⟩ := div_form_eq_ok positive ok
          have nonzero : g.constant.toComplex ≠ 0 := fun vanishes =>
            counts (Number.isNegligible_of_toComplex_eq_zero positive vanishes)
          refine ⟨Form.IsExact.div first second.constant, fun assignment => ⟨?_, ?_⟩⟩
          · rw [value, Form.value_of_isConstant constant]
            exact nonzero
          · rw [value, Form.value_div first second.constant, value, value,
              Form.value_of_isConstant constant]

end Operations

theorem mediate_exact {t a b : Operand} (part : t.value.IsExact) (first : a.value.IsExact)
    (second : b.value.IsExact) (ok : Solver.mediate t a b = .ok result) :
    result.IsExact ∧ ∀ assignment, result.value assignment =
      a.value.value assignment +
        t.value.value assignment * (b.value.value assignment - a.value.value assignment) := by
  obtain ⟨way, product, difference, multiplication, addition⟩ := mediate_eq_ok ok
  obtain ⟨wayExact, wayValue⟩ := sub_exact second first difference
  obtain ⟨productExact, productValue⟩ := mul_exact part wayExact multiplication
  obtain ⟨exact, sum⟩ := add_exact first productExact addition
  refine ⟨exact, fun assignment => ?_⟩
  rw [sum, productValue, wayValue]

/-- Every operation of arithmetic gives an exact value from exact operands, and its value is that of the operation.
-/
theorem operate_exact {operator : Operator} (arithmetic : operator.isArithmetic = true)
    (positive : 0 < cutoff) (first : a.IsExact) (second : b.IsExact)
    (ok : Solver.operate cutoff operator a b = .ok result) :
    result.IsExact ∧ ∀ assignment, operator.value? (a.value assignment) (b.value assignment) =
      some (result.value assignment) := by
  cases operator with
  | sum =>
      obtain ⟨exact, value⟩ := add_exact first second ok
      exact ⟨exact, fun assignment => congrArg some (value assignment).symm⟩
  | difference =>
      obtain ⟨exact, value⟩ := sub_exact first second ok
      exact ⟨exact, fun assignment => congrArg some (value assignment).symm⟩
  | product =>
      obtain ⟨exact, value⟩ := mul_exact first second ok
      exact ⟨exact, fun assignment => congrArg some (value assignment).symm⟩
  | quotient =>
      obtain ⟨exact, value⟩ := div_exact first second positive ok
      refine ⟨exact, fun assignment => ?_⟩
      obtain ⟨nonzero, quotient⟩ := value assignment
      rw [quotient]
      exact if_neg nonzero
  | exponentiation => cases arithmetic
  | equation => cases arithmetic
  | negation => cases arithmetic
  | application => cases arithmetic
  | mediation => cases arithmetic

end Value

namespace Solver

variable {settings : Settings} {solver before after : Solver} {assignment : Assignment}

/-- Whether every known form is exact. -/
def IsExact (solver : Solver) : Prop := ∀ entry ∈ solver.known, entry.2.IsExact

/-- Whether every eliminated unknown has the value of its form. -/
def Agrees (assignment : Assignment) (solver : Solver) : Prop :=
  ∀ entry ∈ solver.known, assignment entry.1 = entry.2.value assignment

theorem IsExact.formOf (exact : solver.IsExact) (unknown : Unknown) :
    (solver.formOf unknown).IsExact := by
  unfold Solver.formOf
  cases found : valueOf? unknown solver.known with
  | some form => exact exact _ (mem_of_valueOf?_eq_some found)
  | none => exact .ofUnknown unknown

theorem Agrees.value_formOf (agrees : solver.Agrees assignment) (unknown : Unknown) :
    (solver.formOf unknown).value assignment = assignment unknown := by
  unfold formOf
  cases found : valueOf? unknown solver.known with
  | some form => exact (agrees _ (mem_of_valueOf?_eq_some found)).symm
  | none => exact Form.value_ofUnknown unknown

/-- The value of an arithmetic expression is exact, and comes to the value of the expression at every
assignment that agrees with the solver. -/
theorem evaluate_exact (positive : 0 < settings.cutoff) (exact : solver.IsExact) {expr : Expr}
    (arithmetic : expr.isArithmetic = true) {value : Value} {start finish : Nat}
    (ok : (solver.evaluate settings expr).run start = .ok (value, finish)) :
    value.IsExact ∧ ∀ assignment, solver.Agrees assignment →
      expr.value? assignment start = some (value.value assignment) := by
  induction expr generalizing value start finish with
  | named name =>
      obtain ⟨rfl, rfl⟩ := evaluate_named ok
      exact ⟨exact.formOf _, fun assignment agrees =>
        congrArg some (agrees.value_formOf _).symm⟩
  | anonymous =>
      obtain ⟨rfl, rfl⟩ := evaluate_anonymous ok
      exact ⟨.ofUnknown _, fun assignment _ => congrArg some (Form.value_ofUnknown _).symm⟩
  | number d =>
      obtain ⟨q, read, rfl, rfl⟩ := evaluate_number ok
      refine ⟨.ofNumber rfl, fun assignment _ => ?_⟩
      rw [Expr.value?, read, Option.map_some]
      exact congrArg some (by simp [Value.value, Form.ofRat])
  | negation operand ih =>
      obtain ⟨a, run, rfl⟩ := evaluate_negation ok
      obtain ⟨operandExact, meaning⟩ := ih arithmetic run
      obtain ⟨negated, value⟩ := Value.neg_exact operandExact
      refine ⟨negated, fun assignment agrees => ?_⟩
      rw [Expr.value?, meaning assignment agrees, Option.map_some, value]
  | application callee argument _ _ => cases arithmetic
  | mediation condition consequent alternative one two three =>
      simp only [Expr.isArithmetic, Bool.and_eq_true] at arithmetic
      obtain ⟨t, middle, a, later, b, conditionRun, consequentRun, alternativeRun, mediated⟩ :=
        evaluate_mediation ok
      obtain ⟨conditionExact, conditionMeaning⟩ := one arithmetic.1.1 conditionRun
      obtain ⟨consequentExact, consequentMeaning⟩ := two arithmetic.1.2 consequentRun
      obtain ⟨alternativeExact, alternativeMeaning⟩ := three arithmetic.2 alternativeRun
      obtain ⟨resultExact, value⟩ :=
        Value.mediate_exact conditionExact consequentExact alternativeExact mediated
      refine ⟨resultExact, fun assignment agrees => ?_⟩
      rw [Expr.value?, conditionMeaning assignment agrees, ← evaluate_created conditionRun,
        consequentMeaning assignment agrees, ← evaluate_created consequentRun,
        alternativeMeaning assignment agrees, value]
      rfl
  | binary operator left right one two =>
      simp only [Expr.isArithmetic, Bool.and_eq_true] at arithmetic
      obtain ⟨a, middle, b, leftRun, rightRun, operated⟩ := evaluate_binary ok
      obtain ⟨leftExact, leftMeaning⟩ := one arithmetic.1.2 leftRun
      obtain ⟨rightExact, rightMeaning⟩ := two arithmetic.2 rightRun
      obtain ⟨resultExact, value⟩ :=
        Value.operate_exact arithmetic.1.1 positive leftExact rightExact operated
      refine ⟨resultExact, fun assignment agrees => ?_⟩
      rw [Expr.value?, leftMeaning assignment agrees, ← evaluate_created leftRun,
        rightMeaning assignment agrees]
      exact value assignment

/-! ## Accepted equations -/

/-- The forms that are simplified when a form is eliminated from a solver: the form, the form of the
pivot, and the forms in which the pivot is replaced. -/
def eliminationForms (settings : Settings) (solver : Solver) (difference : Form) : List Form :=
  difference ::
    match (difference.simplify settings.cutoff).pivot? with
    | none => []
    | some (unknown, factor) =>
      let solution := (difference.simplify settings.cutoff).solvedFor unknown factor
      solution :: (solver.known.filter fun entry => entry.2.mentions unknown).map fun entry =>
        entry.2.substitute unknown (solution.simplify settings.cutoff)

/-- The forms that are simplified when an equation is solved. -/
def simplifications (settings : Settings) (solver : Solver) (equation : Expr) : List Form :=
  match solver.sides settings equation with
  | .ok (.form left, .form right, _) => solver.eliminationForms settings (left.sub right)
  | _ => []

/-- Whether nothing that counts as zero without being zero is dropped when an equation is solved. -/
def IsClear (settings : Settings) (solver : Solver) (equation : Expr) : Prop :=
  ∀ form ∈ solver.simplifications settings equation, form.IsClear settings.cutoff

instance (settings : Settings) (solver : Solver) (equation : Expr) :
    Decidable (solver.IsClear settings equation) :=
  inferInstanceAs (Decidable (∀ form ∈ _, _))

/-- Whether everything that is dropped when an equation is solved has the value zero at an
assignment. -/
def LosesNothing (settings : Settings) (assignment : Assignment) (solver : Solver)
    (equation : Expr) : Prop :=
  ∀ form ∈ solver.simplifications settings equation, form.dropped settings.cutoff assignment = 0

theorem IsClear.losesNothing {equation : Expr} (clear : solver.IsClear settings equation) :
    solver.LosesNothing settings assignment equation :=
  fun form member => Form.dropped_eq_zero (clear form member)

section Sides

variable (positive : 0 < settings.cutoff) (exact : solver.IsExact) {equation : Expr}
  (arithmetic : equation.isArithmeticEquation = true) {left right : Value} {created : Nat}
  (ok : solver.sides settings equation = .ok (left, right, created))
include positive exact arithmetic ok

/-- The sides of an arithmetic equation are exact forms, and an assignment that agrees with the solver
satisfies the equation where they have the same value. -/
theorem sides_exact :
    left.IsExact ∧ right.IsExact ∧ ∀ assignment, solver.Agrees assignment →
      (equation.Holds assignment solver.created ↔
        left.value assignment = right.value assignment) := by
  obtain ⟨leftExpr, rightExpr, middle, rfl, leftRun, rightRun⟩ := sides_eq_ok ok
  simp only [Expr.isArithmeticEquation, Bool.and_eq_true] at arithmetic
  obtain ⟨leftExact, leftMeaning⟩ := evaluate_exact positive exact arithmetic.1 leftRun
  obtain ⟨rightExact, rightMeaning⟩ := evaluate_exact positive exact arithmetic.2 rightRun
  refine ⟨leftExact, rightExact, fun assignment agrees => ?_⟩
  rw [Expr.Holds, leftMeaning assignment agrees, ← evaluate_created leftRun,
    rightMeaning assignment agrees]
  constructor
  · rintro ⟨z, first, second⟩
    exact Option.some.inj (first.trans second.symm)
  · intro same
    exact ⟨_, rfl, congrArg some same.symm⟩

end Sides

theorem simplifications_eq {equation : Expr} {left right : Form} {created : Nat}
    (ok : solver.sides settings equation = .ok (.form left, .form right, created)) :
    solver.simplifications settings equation =
      solver.eliminationForms settings (left.sub right) := by
  rw [simplifications, ok]

section Elimination

variable {difference form solution : Form} {unknown : Unknown} {factor : Number}
  (found : (difference.simplify settings.cutoff).pivot? = some (unknown, factor))
include found

theorem mem_eliminationForms_solvedFor :
    (difference.simplify settings.cutoff).solvedFor unknown factor ∈
      solver.eliminationForms settings difference := by
  rw [eliminationForms, found]
  exact List.mem_cons_of_mem _ (List.mem_cons_self ..)

theorem mem_eliminationForms_substitute {entry : Unknown × Form} (member : entry ∈ solver.known)
    (mentioned : entry.2.mentions unknown = true) :
    entry.2.substitute unknown
        (((difference.simplify settings.cutoff).solvedFor unknown factor).simplify settings.cutoff) ∈
      solver.eliminationForms settings difference := by
  rw [eliminationForms, found]
  refine List.mem_cons_of_mem _ (List.mem_cons_of_mem _ (List.mem_map.mpr ⟨entry, ?_, rfl⟩))
  exact List.mem_filter.mpr ⟨member, mentioned⟩

omit found

theorem pivotStep_exact (exact : difference.IsExact)
    (ok : pivotStep settings difference = .ok (unknown, solution)) : solution.IsExact := by
  obtain ⟨factor, member, _, rfl⟩ := Form.pivotStep_eq_ok ok
  have number := (exact.simplify settings.cutoff).terms.exact _ member
  exact ((exact.simplify _).solvedFor unknown number).simplify _

theorem rewritten_exact (exact : form.IsExact) (value : solution.IsExact) :
    (rewritten settings unknown solution form).IsExact := by
  by_cases mentioned : form.mentions unknown = true
  · rw [rewritten, if_pos mentioned]
    exact (exact.substitute value unknown).simplify _
  · rw [rewritten, if_neg mentioned]
    exact exact

theorem value_rewritten (exact : form.IsExact) (value : solution.IsExact)
    (nothing : form.mentions unknown = true →
      (form.substitute unknown solution).dropped settings.cutoff assignment = 0)
    (stands : assignment unknown = solution.value assignment) :
    (rewritten settings unknown solution form).value assignment = form.value assignment := by
  by_cases mentioned : form.mentions unknown = true
  · rw [rewritten, if_pos mentioned, Form.value_simplify_of_dropped (nothing mentioned),
      Form.value_substitute exact value stands]
  · rw [rewritten, if_neg mentioned]

/-- A pivot has the value of its form exactly where the eliminated form vanishes. -/
theorem eq_value_pivot_iff (exact : difference.IsExact)
    (ok : pivotStep settings difference = .ok (unknown, solution))
    (nothing : ∀ form ∈ solver.eliminationForms settings difference,
      form.dropped settings.cutoff assignment = 0) :
    assignment unknown = solution.value assignment ↔ difference.value assignment = 0 := by
  obtain ⟨factor, member, found, rfl⟩ := Form.pivotStep_eq_ok ok
  rw [Form.value_simplify_of_dropped (nothing _ (mem_eliminationForms_solvedFor found)),
    Form.eq_value_solvedFor_iff (exact.simplify _) member,
    Form.value_simplify_of_dropped (nothing _ (List.mem_cons_self ..))]

end Elimination

section Accept

variable (positive : 0 < settings.cutoff) (reduced : before.IsReduced) (exact : before.IsExact)
  {equation : Expr} (arithmetic : equation.isArithmeticEquation = true) {left right solution : Form}
  {created : Nat} {unknown : Unknown}
  (accepts : Accepts settings before equation after left right created unknown solution)
include positive reduced exact arithmetic accepts

theorem exact_accept : after.IsExact := by
  obtain ⟨leftExact, rightExact, _⟩ := sides_exact positive exact arithmetic accepts.sides
  have value := pivotStep_exact (Form.IsExact.sub leftExact rightExact) accepts.pivot
  intro entry member
  rcases (reduced.mem_known_accept accepts).mp member with ⟨old, known, rfl⟩ | rfl
  · exact rewritten_exact (exact old known) value
  · exact value

/-- After an accepted equation the assignments that agree with the solver are those that agreed before
and satisfy the equation, among the assignments at which nothing is lost. -/
theorem agrees_accept_iff (nothing : before.LosesNothing settings assignment equation) :
    after.Agrees assignment ↔
      before.Agrees assignment ∧ equation.Holds assignment before.created := by
  obtain ⟨leftExact, rightExact, meaning⟩ := sides_exact positive exact arithmetic accepts.sides
  have difference := Form.IsExact.sub leftExact rightExact
  have value := pivotStep_exact difference accepts.pivot
  rw [LosesNothing, simplifications_eq accepts.sides] at nothing
  have pivot : assignment unknown = solution.value assignment ↔
      left.value assignment = right.value assignment := by
    rw [eq_value_pivot_iff difference accepts.pivot nothing, Form.value_sub leftExact rightExact,
      sub_eq_zero]
  have rewriting : assignment unknown = solution.value assignment → ∀ old ∈ before.known,
      (rewritten settings unknown solution old.2).value assignment = old.2.value assignment := by
    intro stands old known
    refine value_rewritten (exact old known) value (fun mentioned => ?_) stands
    obtain ⟨factor, _, found, rfl⟩ := Form.pivotStep_eq_ok accepts.pivot
    exact nothing _ (mem_eliminationForms_substitute found known mentioned)
  constructor
  · intro agrees
    have stands := agrees _ ((reduced.mem_known_accept accepts).mpr (.inr rfl))
    have earlier : before.Agrees assignment := by
      intro old known
      rw [← rewriting stands old known]
      exact agrees _ ((reduced.mem_known_accept accepts).mpr (.inl ⟨old, known, rfl⟩))
    exact ⟨earlier, (meaning assignment earlier).mpr (pivot.mp stands)⟩
  · rintro ⟨earlier, holds⟩
    have stands := pivot.mpr ((meaning assignment earlier).mp holds)
    intro entry member
    rcases (reduced.mem_known_accept accepts).mp member with ⟨old, known, rfl⟩ | rfl
    · exact (earlier old known).trans (rewriting stands old known).symm
    · exact stands

end Accept

/-- What is not eliminated can have any values in an assignment that agrees with the solver. -/
theorem IsReduced.exists_agrees (reduced : solver.IsReduced) (free : Assignment) :
    ∃ assignment, solver.Agrees assignment ∧
      ∀ unknown ∉ solver.eliminated, assignment unknown = free unknown := by
  let assignment : Assignment := fun unknown => (solver.formOf unknown).value free
  have kept : ∀ unknown ∉ solver.eliminated, assignment unknown = free unknown := by
    intro unknown absent
    simp only [assignment, formOf, valueOf?_eq_none_iff.mpr absent, Option.getD_none,
      Form.value_ofUnknown]
  refine ⟨assignment, fun entry member => ?_, kept⟩
  have found := (valueOf?_eq_some_iff reduced.distinct).mpr member
  simp only [assignment, formOf, found, Option.getD_some]
  exact Form.value_congr fun other inside => (kept other (reduced.free entry member other inside)).symm

end Solver

end EquationText
