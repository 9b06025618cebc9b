import EquationText.Proofs.Fault
import EquationText.Proofs.Form.Printing
import EquationText.Proofs.Form.Range
import EquationText.Proofs.Grammar.Derivation
import EquationText.Proofs.Solver.Evaluation
import EquationText.Proofs.Solver.Translation
import EquationText.Solver.Command

/-! # The faults of the linear engine

Given equations between expressions, the linear engine stops with faults of a solver, unless it cannot print
with its precision or finds no pivot (`EquationText.Solver.Guards`). Therefore it never stops with a fault that
guards against misuse, and it stops with ordinary faults only as long as it prints with one of the usual
precisions (`EquationText.Solver.solve_confines`); so do its commands and answers.
-/

namespace EquationText

/-- Whether an evaluation that stops does so with a cause of some kind. -/
def Evaluation.StopsWith {α : Type} (P : Cause → Prop) (evaluation : Evaluation α) : Prop :=
  ∀ created, EquationText.StopsWith P (evaluation.run created)

namespace Evaluation.StopsWith

variable {α β : Type} {P : Cause → Prop}

theorem of_lift {computation : Except Cause α} (stops : EquationText.StopsWith P computation) :
    StopsWith P (liftM computation : Evaluation α) := by
  intro created cause error
  cases computation with
  | error found =>
      cases error
      exact stops _ rfl
  | ok a => cases error

theorem bind {first : Evaluation α} {next : α → Evaluation β} (left : StopsWith P first)
    (right : ∀ a, StopsWith P (next a)) : StopsWith P (first >>= next) := by
  intro created
  rw [StateT.run_bind]
  exact (left created).bind fun pair => right pair.1 pair.2

theorem map {first : Evaluation α} (stops : StopsWith P first) (f : α → β) : StopsWith P (f <$> first) := by
  rw [map_eq_pure_bind]
  exact stops.bind fun _ _ => .of_ok _

end Evaluation.StopsWith

/-! ## Values -/

open Cause (IsExpected IsOfSolver IsOrdinary)

namespace Value

variable {cutoff : Rat} {a b t : Value}

theorem add_ofSolver : StopsWith IsOfSolver (a.add b) := by
  intro cause error
  unfold add at error
  split at error <;> cases error
  rfl

theorem sub_ofSolver : StopsWith IsOfSolver (a.sub b) := add_ofSolver

theorem mul_ofSolver : StopsWith IsOfSolver (a.mul b) := by
  intro cause error
  unfold mul at error
  repeat' split at error
  all_goals cases error
  all_goals rfl

theorem div_ofSolver : StopsWith IsOfSolver (a.div cutoff b) := by
  intro cause error
  unfold div at error
  repeat' split at error
  all_goals cases error
  all_goals rfl

theorem finiteNumber_ofSolver : StopsWith IsOfSolver a.finiteNumber := by
  intro cause error
  unfold finiteNumber at error
  repeat' split at error
  all_goals cases error
  all_goals rfl

theorem settle_ofSolver {computation : Computation} {outcome : Outcome} :
    StopsWith IsOfSolver (settle cutoff computation outcome) := by
  intro cause error
  unfold settle at error
  simp only at error
  repeat' split at error
  all_goals cases error
  all_goals rfl

/-- A power that is not computed stops with a cause of the solver. -/
theorem checkedPower_ofSolver {base exponent : Number} :
    StopsWith IsOfSolver (checkedPower cutoff base exponent) := by
  unfold checkedPower
  split
  · exact settle_ofSolver
  split
  · exact .of_error rfl
  simp only
  split
  · exact .of_error rfl
  split
  · exact .of_ok _
  · exact settle_ofSolver

theorem pow_ofSolver : StopsWith IsOfSolver (a.pow cutoff b) := by
  unfold pow
  split
  · exact .of_error rfl
  split
  · exact .of_error rfl
  exact .bind finiteNumber_ofSolver fun _ => .bind finiteNumber_ofSolver fun _ =>
    .bind checkedPower_ofSolver fun _ => .of_ok _

theorem applyNamed_ofSolver {name : String} : StopsWith IsOfSolver (a.applyNamed cutoff name) := by
  unfold applyNamed
  split
  · exact .of_error rfl
  split
  · exact .of_error rfl
  split
  · exact .of_error rfl
  · exact .bind settle_ofSolver fun _ => .of_ok _

theorem checkRange_ofSolver : StopsWith IsOfSolver a.checkRange := by
  intro cause error
  unfold checkRange at error
  repeat' split at error
  all_goals cases error
  all_goals rfl

end Value

namespace Solver

variable {settings : Settings} {solver : Solver}

theorem scaleWay_ofSolver {t a b : Operand} {way : Value} : StopsWith IsOfSolver (scaleWay t a b way) := by
  unfold scaleWay
  split
  · exact .of_error rfl
  · exact Value.mul_ofSolver

theorem mediate_ofSolver {t a b : Operand} : StopsWith IsOfSolver (mediate t a b) :=
  .bind Value.sub_ofSolver fun _ => .bind scaleWay_ofSolver fun _ => Value.add_ofSolver

theorem operate_ofSolver {cutoff : Rat} {operator : Operator} {a b : Value}
    (infixed : operator.isInfixed = true) (noEquation : operator ≠ .equation) :
    StopsWith IsOfSolver (operate cutoff operator a b) := by
  cases operator with
  | sum => exact Value.add_ofSolver
  | difference => exact Value.sub_ofSolver
  | product => exact Value.mul_ofSolver
  | quotient => exact Value.div_ofSolver
  | exponentiation => exact Value.pow_ofSolver
  | equation => exact (noEquation rfl).elim
  | negation | application | mediation => cases infixed

theorem literal_ofSolver {d : Double} : StopsWith IsOfSolver (literal d) := by
  unfold literal
  split
  · exact .of_ok _
  · exact .of_error rfl

/-! ## Expressions -/

theorem combineInRange_ofSolver {node : Expr} {operands : List Operand}
    (combined : Evaluation.StopsWith IsOfSolver (solver.combine settings node operands)) :
    Evaluation.StopsWith IsOfSolver (solver.combineInRange settings node operands) :=
  .bind combined fun _ => .bind (.of_lift Value.checkRange_ofSolver) fun _ _ => .of_ok _

/-- A node with a computed value stops as the computation does. -/
theorem lift_ofSolver {computation : Except Cause Value} (stops : StopsWith IsOfSolver computation) :
    Evaluation.StopsWith IsOfSolver (liftM (computation.map Operand.ofValue) : Evaluation Operand) := by
  refine .of_lift fun cause error => stops cause ?_
  cases computation with
  | error found =>
      cases error
      rfl
  | ok value => cases error

/-- The evaluation of an expression without an equation stops with a cause of the solver at each of its nodes. -/
theorem operandOf_ofSolver {expr : Expr} (expression : expr.isExpression = true) :
    Evaluation.StopsWith IsOfSolver (solver.operandOf settings expr) := by
  rw [operandOf_eq_reduce]
  induction expr with
  | named name => exact combineInRange_ofSolver fun _ => .of_ok _
  | anonymous => exact combineInRange_ofSolver fun _ => .of_ok _
  | number d => exact combineInRange_ofSolver (lift_ofSolver literal_ofSolver)
  | negation operand ih =>
      exact .bind (ih expression) fun _ => combineInRange_ofSolver fun _ => .of_ok _
  | application callee argument _ ih =>
      cases callee with
      | named name =>
          refine .bind (combineInRange_ofSolver fun _ => .of_ok _) fun _ =>
            .bind (ih expression) fun _ => combineInRange_ofSolver ?_
          exact lift_ofSolver Value.applyNamed_ofSolver
      | _ => cases expression
  | mediation condition consequent alternative first second third =>
      simp only [Expr.isExpression, Bool.and_eq_true] at expression
      refine .bind (first expression.1.1) fun _ => .bind (second expression.1.2) fun _ =>
        .bind (third expression.2) fun _ => combineInRange_ofSolver ?_
      exact lift_ofSolver mediate_ofSolver
  | binary operator left right first second =>
      simp only [Expr.isExpression, Bool.and_eq_true, decide_eq_true_eq] at expression
      refine .bind (first expression.1.2) fun _ => .bind (second expression.2) fun _ =>
        combineInRange_ofSolver ?_
      exact lift_ofSolver (operate_ofSolver expression.1.1.1 expression.1.1.2)

/-- The value of an expression is found, or the evaluation stops with a fault of the solver. -/
theorem evaluate_ofSolver {expr : Expr} (expression : expr.isExpression = true) :
    Evaluation.StopsWith IsOfSolver (solver.evaluate settings expr) :=
  (operandOf_ofSolver expression).map Operand.value

/-! ## What is relied on -/

/-- A property of solvers that solving and commands keep, and the causes that these stop with. -/
structure Guards (settings : Settings) (S : Solver → Prop) (P : Cause → Prop) : Prop where
  solver : ∀ cause, cause.IsOfSolver → P cause
  digits : ∀ solver, S solver → StopsWith P (solver.style settings).digits
  pivot : P .noPivot ∨ 0 < settings.cutoff
  state : ∀ solver known solved created, S solver → S { solver with known, solved, created }
  reporting : ∀ solver verbose, S solver → S { solver with verbose }
  printing : ∀ solver precision, IsUsualPrecision precision → S solver → S { solver with precision }

/-- Whatever the settings, no fault guards against misuse. -/
theorem guards_expected (settings : Settings) : Guards settings (fun _ => True) IsExpected where
  solver _ ofSolver := ofSolver.isOrdinary.isExpected
  digits solver _ cause error := by
    obtain ⟨fault, rfl⟩ := Style.digits_error error
    rfl
  pivot := .inl rfl
  state _ _ _ _ holds := holds
  reporting _ _ holds := holds
  printing _ _ _ holds := holds

/-- With a usual precision and a tolerance all faults are ordinary. -/
theorem guards_ordinary (positive : 0 < settings.cutoff) :
    Guards settings (fun solver => IsUsualPrecision solver.precision) IsOrdinary where
  solver _ ofSolver := ofSolver.isOrdinary
  digits solver usual cause error := by
    rw [Style.digits_of_isPrintable (isPrintable_of_isUsualPrecision usual)] at error
    cases error
  pivot := .inr positive
  state _ _ _ _ usual := usual
  reporting _ _ usual := usual
  printing _ _ usual _ := usual

section Guards

variable {S : Solver → Prop} {P : Cause → Prop} (guards : Guards settings S P)
include guards

/-! ## Printing -/

theorem form_stopsWith (holds : S solver) (form : Form) :
    StopsWith P ((solver.style settings).form settings.anonymousWord form) := by
  intro cause error
  rcases Style.form_error error with digits | ⟨rfl, _⟩
  · exact guards.digits solver holds cause digits
  · exact guards.solver _ rfl

theorem describeValue_stopsWith (holds : S solver) (value : Value) :
    StopsWith P (solver.describeValue settings value) := by
  cases value with
  | form form => exact form_stopsWith guards holds form
  | infinite => exact .of_ok _

theorem translate_stopsWith (holds : S solver) (reference : String) :
    StopsWith P (solver.translate settings reference) := fun cause error =>
  guards.digits solver holds cause (translate_error error)

theorem translateAll_stopsWith (holds : S solver) (names : List String) :
    StopsWith P (solver.translateAll settings names) := fun cause error =>
  guards.digits solver holds cause (translateAll_error error)

/-! ## Solving -/

theorem simplified_stopsWith (form : Form) : StopsWith P (simplified settings form) := by
  unfold simplified
  split
  · exact .of_error (guards.solver _ rfl)
  · exact .of_ok _

/-- Choosing a pivot stops with a cause of the kind: one of the solver, a modulus out of range, or the lack of a
pivot. -/
theorem pivotStep_stopsWith (difference : Form) : StopsWith P (pivotStep settings difference) := by
  intro cause error
  rcases except_bind_eq_error error with failed | ⟨form, simple, later⟩
  · exact simplified_stopsWith guards difference cause failed
  have same : form = difference.simplify settings.cutoff := by
    unfold simplified at simple
    split at simple <;> cases simple
    rfl
  subst same
  split at later
  · repeat' split at later
    all_goals
      cases later
      exact guards.solver _ rfl
  · rename_i mentions
    split at later
    · rename_i none
      cases later
      exact guards.pivot.resolve_right fun positive => Form.pivot?_simplify_ne_none positive mentions none
    · rcases except_bind_eq_error later with failed | ⟨_, _, done⟩
      · exact simplified_stopsWith guards _ cause failed
      · cases done

theorem reportForm_confines (unknown : Unknown) (form : Form) :
    Action.Confines S P (reportForm settings unknown form) := by
  refine .bind_get fun solver holds => ?_
  split
  · exact .bind (.of_ofExcept (form_stopsWith guards holds form)) fun _ => .of_report _ _ _
  · exact .of_pure ()

theorem markSolved_confines (unknown : Unknown) (form : Form) :
    Action.Confines S P (markSolved form unknown) := by
  cases unknown with
  | anonymous serial => exact .of_pure ()
  | named name =>
      rw [markSolved]
      split
      · exact .bind (.of_modify fun solver => guards.state solver _ _ _) fun _ => .of_report _ _ _
      · exact .of_pure ()

theorem record_confines (unknown : Unknown) (form : Form) :
    Action.Confines S P (record settings unknown form) := by
  unfold record
  split
  · exact .of_failWith (guards.solver _ rfl)
  · exact .bind (.of_modify fun solver => guards.state solver _ _ _) fun _ =>
      .bind (reportForm_confines guards unknown form) fun _ => markSolved_confines guards unknown form

theorem substituteAll_confines (unknown : Unknown) (solution : Form) (entries : List (Unknown × Form)) :
    Action.Confines S P (substituteAll settings unknown solution entries) := by
  induction entries with
  | nil => exact .of_pure ()
  | cons entry rest ih =>
      refine .bind ?_ fun _ => ih
      unfold substituteOne
      split
      · exact .bind (.of_ofExcept (simplified_stopsWith guards _)) fun _ => record_confines guards _ _
      · exact .of_pure ()

theorem equate_confines (left right : Value) : Action.Confines S P (equate settings left right) := by
  unfold equate
  split
  · exact .bind (.of_ofExcept (pivotStep_stopsWith guards _)) fun pivot =>
      .bind (record_confines guards _ _) fun _ =>
        .bind .of_get fun solver => substituteAll_confines guards _ _ solver.known
  · exact .of_failWith (guards.solver _ rfl)

theorem valueOf_confines {expr : Expr} (expression : expr.isExpression = true) :
    Action.Confines S P (valueOf settings expr) :=
  .bind .of_get fun solver =>
    .bind (.of_ofExcept fun cause error =>
      guards.solver cause (evaluate_ofSolver expression solver.created cause error)) fun _ =>
        .bind (.of_modify fun solver => guards.state solver _ _ _) fun _ => .of_pure _

theorem reportEquation_confines (left right : Value) :
    Action.Confines S P (reportEquation settings left right) := by
  refine .bind_get fun solver holds => ?_
  split
  · exact .bind (.of_ofExcept (describeValue_stopsWith guards holds left)) fun _ =>
      .bind (.of_ofExcept (describeValue_stopsWith guards holds right)) fun _ => .of_report _ _ _
  · exact .of_pure ()

/-- An equation between expressions is solved, or refused with a fault of the document. -/
theorem solve_confines {left right : Expr} (leftExpression : left.isExpression = true)
    (rightExpression : right.isExpression = true) :
    Action.Confines S P (solve settings (.binary .equation left right)) :=
  .bind (.of_report _ _ _) fun _ => .bind (valueOf_confines guards leftExpression) fun _ =>
    .bind (valueOf_confines guards rightExpression) fun _ =>
      .bind (reportEquation_confines guards _ _) fun _ => .bind .of_get fun _ =>
        .bind (equate_confines guards _ _) fun _ => .bind_get fun _ holds =>
          .of_ofExcept (translateAll_stopsWith guards holds _)

/-! ## Commands -/

theorem showNames_confines (words : List (List Char)) :
    Action.Confines S P (showNames settings words) := by
  induction words with
  | nil => exact .of_pure ()
  | cons word rest ih =>
      unfold showNames
      simp only
      split
      · exact .bind_get fun solver holds => .bind (.of_ofExcept (form_stopsWith guards holds _)) fun _ =>
          .bind (.of_report _ _ _) fun _ => ih
      · exact .of_failWith (guards.solver _ rfl)

/-- Every command keeps the property of the solver, and stops with a cause of the kind. -/
theorem command_confines (name payload : String) : Action.Confines S P (command settings name payload) := by
  unfold command
  simp only
  split
  · unfold setVerbose
    split
    · exact .of_modify fun solver => guards.reporting solver _
    · exact .of_failWith (guards.solver _ rfl)
  · unfold showForms
    split
    · exact .of_failWith (guards.solver _ rfl)
    · exact showNames_confines guards _
  · unfold setDigits
    split
    · exact .of_failWith (guards.solver _ rfl)
    · split
      · rename_i digits _ inRange
        have usual : IsUsualPrecision digits := isUsualPrecision_of_accepted inRange
        exact .of_modify fun solver => guards.printing solver digits usual
      · exact .of_failWith (guards.solver _ rfl)
  · exact .of_failWith (guards.solver _ rfl)

end Guards

end Solver

end EquationText
