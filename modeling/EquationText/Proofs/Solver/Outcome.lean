import EquationText.Proofs.Solver.Shortfall

/-! # How an equation comes out

A reduced solver of exact forms refuses an arithmetic equation as redundant exactly when every
assignment that agrees with it satisfies the equation (`EquationText.Solver.redundant_iff`), and as
inconsistent exactly when none does (`EquationText.Solver.inconsistent_iff`), where the sides can be
described and the modulus of their difference is within the range of doubles. Every other equation is
accepted unless it stops short (`EquationText.Solver.solve_outcome`).
-/

namespace EquationText

namespace Solver

variable {settings : Settings} {solver : Solver} {before after : Traced Solver} {equation : Expr}
  {cause : Cause} {difference left right : Form} {created : Nat}

/-- Whether the sides of an equation can be described, where that is asked for. -/
def CanReport (settings : Settings) (solver : Solver) (equation : Expr) : Prop :=
  ∀ left right created, solver.sides settings equation = .ok (left, right, created) →
    solver.checkReport settings left right = .ok ()

/-- Whether the modulus of the constant of the difference of the sides is within the range of
doubles. -/
def DifferenceInRange (settings : Settings) (solver : Solver) (equation : Expr) : Prop :=
  ∀ left right created, solver.sides settings equation = .ok (.form left, .form right, created) →
    (left.sub right).constant.modulusOverflows = false

/-- Whether the difference of the sides has no part that counts as zero without being zero. -/
def DifferenceIsClear (settings : Settings) (solver : Solver) (equation : Expr) : Prop :=
  ∀ left right created, solver.sides settings equation = .ok (.form left, .form right, created) →
    (left.sub right).IsClear settings.cutoff

/-- An equation without a pivot is refused for the reason that there is none. -/
theorem solve_of_nextPivot_error (error : before.state.nextPivot settings equation = .error cause) :
    (solve settings equation before).1 = .error cause.unplaced := by
  rcases run : solve settings equation before with ⟨found | bindings, after⟩
  · obtain ⟨placed, ⟨early, _⟩ | ⟨unknown, solution, created, middle, late, _⟩⟩ := solve_error run
    · rw [error] at early
      cases early
      exact congrArg Except.error placed
    · rw [error] at late
      cases late
  · obtain ⟨left, right, created, unknown, solution, accepts⟩ := solve_ok run
    have next := accepts.next
    rw [error] at next
    cases next

section Result

variable (positive : 0 < settings.cutoff) (reduced : before.state.IsReduced)
  (sides : before.state.sides settings equation = .ok (.form left, .form right, created))
include positive reduced sides

/-- An equation between two forms is accepted, or refused with a verdict, or it stops short. -/
theorem solve_outcome :
    (∃ bindings, (solve settings equation before).1 = .ok bindings) ∨
      ∃ cause, (solve settings equation before).1 = .error cause.unplaced ∧
        (IsVerdict cause ∨ before.state.StopsShort settings equation cause) := by
  cases next : before.state.nextPivot settings equation with
  | error cause =>
      refine .inr ⟨cause, solve_of_nextPivot_error next, ?_⟩
      rcases nextPivot_error positive sides next with stops | ⟨_, _, verdict⟩
      · exact .inr stops
      · exact .inl verdict
  | ok pivot =>
      rcases run : solve settings equation before with ⟨fault | bindings, after⟩
      · refine .inr ⟨fault.cause, congrArg Except.error (solve_error run).1, .inr ?_⟩
        exact solve_error_of_nextPivot reduced run next
      · exact .inl ⟨bindings, rfl⟩

/-- A verdict is given exactly when the sides can be described and their difference comes to it. -/
theorem solve_verdict_iff (verdict : IsVerdict cause) :
    (solve settings equation before).1 = .error cause.unplaced ↔
      before.state.CanReport settings equation ∧
        pivotStep settings (left.sub right) = .error cause := by
  constructor
  · intro refused
    have next : before.state.nextPivot settings equation = .error cause := by
      cases found : before.state.nextPivot settings equation with
      | error other =>
          have same := solve_of_nextPivot_error found
          rw [refused] at same
          cases same
          rfl
      | ok pivot =>
          have stops := solve_error_of_nextPivot reduced (Prod.ext refused rfl) found
          exact absurd verdict stops.not_isVerdict
    rcases nextPivot_error positive sides next with stops | ⟨reported, error, _⟩
    · exact absurd verdict stops.not_isVerdict
    · refine ⟨?_, error⟩
      intro leftValue rightValue count found
      rw [sides] at found
      cases found
      exact reported
  · rintro ⟨canReport, error⟩
    refine solve_of_nextPivot_error ?_
    rw [nextPivot, sides, except_ok_bind]
    simp only [canReport _ _ _ sides, except_ok_bind, pivotOf, error, except_error_bind]

end Result

/-! ## Verdicts and solutions -/

section Verdict

variable (positive : 0 < settings.cutoff) (exact : difference.IsExact)
  (clear : difference.IsClear settings.cutoff)
include positive exact clear

omit positive in
/-- The verdict on a difference without unknowns comes from its constant. -/
theorem pivotStep_of_isConstant (constant : difference.isConstant = true) :
    pivotStep settings difference =
      .error (if difference.constant.modulusOverflows then .modulusRange
        else if difference.constant.isNegligible settings.cutoff then .solving .redundant
        else .solving .inconsistent) := by
  have moduli : difference.someModulusOverflows = false := by
    rw [Form.someModulusOverflows, (Form.isConstant_iff _).mp constant]
    rfl
  rw [pivotStep, simplified, moduli, if_neg Bool.false_ne_true, except_ok_bind,
    Form.simplify_eq_self exact clear, if_pos constant]
  split
  · rfl
  · split <;> rfl

theorem isConstant_of_verdict (verdict : IsVerdict cause)
    (error : pivotStep settings difference = .error cause) : difference.isConstant = true := by
  rcases pivotStep_error positive (start settings false none none) ⟨0, 0⟩ error with
    ⟨form, _, leaves⟩ | ⟨constant, _⟩
  · exact absurd verdict (not_isVerdict (leaves.imp id And.left))
  · rwa [Form.simplify_eq_self exact clear] at constant

/-- An equation is redundant exactly if the difference of its sides is the number zero. -/
theorem pivotStep_redundant_iff :
    pivotStep settings difference = .error (.solving .redundant) ↔
      difference.isConstant = true ∧ difference.constant.toComplex = 0 := by
  constructor
  · intro error
    have constant := isConstant_of_verdict positive exact clear (.inl rfl) error
    rw [pivotStep_of_isConstant exact clear constant] at error
    refine ⟨constant, ?_⟩
    by_cases beyond : difference.constant.modulusOverflows = true
    · rw [if_pos beyond] at error
      cases error
    · by_cases negligible : difference.constant.isNegligible settings.cutoff = true
      · exact Number.toComplex_eq_zero_of_isNegligible clear.1 negligible
      · rw [if_neg beyond, if_neg negligible] at error
        cases error
  · rintro ⟨constant, vanishes⟩
    rw [pivotStep_of_isConstant exact clear constant,
      Number.modulusOverflows_of_toComplex_eq_zero vanishes, if_neg Bool.false_ne_true,
      if_pos (Number.isNegligible_of_toComplex_eq_zero positive vanishes)]

/-- An equation is inconsistent exactly if the difference of its sides is another number, unless the modulus of that
number is out of range. -/
theorem pivotStep_inconsistent_iff :
    pivotStep settings difference = .error (.solving .inconsistent) ↔
      difference.isConstant = true ∧ difference.constant.toComplex ≠ 0 ∧
        difference.constant.modulusOverflows = false := by
  constructor
  · intro error
    have constant := isConstant_of_verdict positive exact clear (.inr rfl) error
    rw [pivotStep_of_isConstant exact clear constant] at error
    by_cases beyond : difference.constant.modulusOverflows = true
    · rw [if_pos beyond] at error
      cases error
    · by_cases negligible : difference.constant.isNegligible settings.cutoff = true
      · rw [if_neg beyond, if_pos negligible] at error
        cases error
      · have nonzero : difference.constant.toComplex ≠ 0 := fun vanishes =>
          negligible (Number.isNegligible_of_toComplex_eq_zero positive vanishes)
        exact ⟨constant, nonzero, Bool.eq_false_iff.mpr beyond⟩
  · rintro ⟨constant, nonzero, within⟩
    have counts : ¬ difference.constant.isNegligible settings.cutoff = true := fun negligible =>
      nonzero (Number.toComplex_eq_zero_of_isNegligible clear.1 negligible)
    rw [pivotStep_of_isConstant exact clear constant, within, if_neg Bool.false_ne_true,
      if_neg counts]

end Verdict

section Solutions

variable (reduced : solver.IsReduced) (exact : difference.IsExact)
  (free : ∀ unknown ∈ difference.unknowns, unknown ∉ solver.eliminated)
include reduced exact free

/-- A form in unknowns that are not eliminated takes every value, unless it is a constant. -/
theorem exists_agrees_value_eq (mentions : ¬ difference.isConstant = true) (z : ℂ) :
    ∃ assignment, solver.Agrees assignment ∧ difference.value assignment = z := by
  rw [Form.isConstant_iff] at mentions
  obtain ⟨term, member⟩ := List.exists_mem_of_ne_nil _ mentions
  obtain ⟨w, value⟩ := Form.exists_value_update_eq exact (List.mem_map_of_mem member) (fun _ => 0) z
  obtain ⟨assignment, agrees, same⟩ :=
    reduced.exists_agrees (Function.update (fun _ => 0) term.1 w)
  refine ⟨assignment, agrees, ?_⟩
  rw [← value]
  exact Form.value_congr fun unknown inside => same unknown (free unknown inside)

/-- A form in the remaining unknowns is zero at all solutions only if it is the number zero: these unknowns are
free. -/
theorem forall_value_eq_zero_iff :
    (∀ assignment, solver.Agrees assignment → difference.value assignment = 0) ↔
      difference.isConstant = true ∧ difference.constant.toComplex = 0 := by
  constructor
  · intro vanishes
    have constant : difference.isConstant = true := by
      by_contra mentions
      obtain ⟨assignment, agrees, value⟩ := exists_agrees_value_eq reduced exact free mentions 1
      rw [vanishes assignment agrees] at value
      exact zero_ne_one value
    obtain ⟨assignment, agrees, _⟩ := reduced.exists_agrees fun _ => 0
    refine ⟨constant, ?_⟩
    rw [← Form.value_of_isConstant constant]
    exact vanishes assignment agrees
  · rintro ⟨constant, vanishes⟩ assignment _
    rw [Form.value_of_isConstant constant, vanishes]

/-- A form in the remaining unknowns is zero at no solution only if it is a number other than zero. -/
theorem forall_value_ne_zero_iff :
    (∀ assignment, solver.Agrees assignment → difference.value assignment ≠ 0) ↔
      difference.isConstant = true ∧ difference.constant.toComplex ≠ 0 := by
  constructor
  · intro nonzero
    have constant : difference.isConstant = true := by
      by_contra mentions
      obtain ⟨assignment, agrees, value⟩ := exists_agrees_value_eq reduced exact free mentions 0
      exact nonzero assignment agrees value
    obtain ⟨assignment, agrees, _⟩ := reduced.exists_agrees fun _ => 0
    refine ⟨constant, ?_⟩
    rw [← Form.value_of_isConstant constant]
    exact nonzero assignment agrees
  · rintro ⟨constant, nonzero⟩ assignment _
    rwa [Form.value_of_isConstant constant]

end Solutions

section Result

variable (positive : 0 < settings.cutoff) (reduced : before.state.IsReduced)
  (exact : before.state.IsExact) (arithmetic : equation.isArithmeticEquation = true)
  (sides : before.state.sides settings equation = .ok (.form left, .form right, created))
  (clear : (left.sub right).IsClear settings.cutoff)
include positive reduced exact arithmetic sides clear

/-- An equation is refused as redundant when it says nothing new, provided its sides can be
described. -/
theorem redundant_iff :
    (solve settings equation before).1 = .error (Cause.solving .redundant).unplaced ↔
      before.state.CanReport settings equation ∧ ∀ assignment, before.state.Agrees assignment →
        equation.Holds assignment before.state.created := by
  obtain ⟨leftExact, rightExact, meaning⟩ := sides_exact positive exact arithmetic sides
  have differenceExact := Form.IsExact.sub leftExact rightExact
  have free : ∀ unknown ∈ (left.sub right).unknowns, unknown ∉ before.state.eliminated :=
    fun unknown inside => reduced.not_mem_of_reaches
      (mem_unknowns_sides sides (Form.mem_unknowns_sub inside))
  rw [solve_verdict_iff positive reduced sides (.inl rfl),
    pivotStep_redundant_iff positive differenceExact clear,
    ← forall_value_eq_zero_iff reduced differenceExact free]
  refine and_congr_right fun _ => forall₂_congr fun assignment agrees => ?_
  rw [meaning assignment agrees, Form.value_sub leftExact rightExact, sub_eq_zero]
  rfl

/-- An equation is refused as inconsistent when nothing satisfies it, provided its sides can be
described and the modulus of their difference is within the range of doubles. -/
theorem inconsistent_iff :
    (solve settings equation before).1 = .error (Cause.solving .inconsistent).unplaced ↔
      (before.state.CanReport settings equation ∧
        before.state.DifferenceInRange settings equation) ∧
        ∀ assignment, before.state.Agrees assignment →
          ¬ equation.Holds assignment before.state.created := by
  obtain ⟨leftExact, rightExact, meaning⟩ := sides_exact positive exact arithmetic sides
  have differenceExact := Form.IsExact.sub leftExact rightExact
  have free : ∀ unknown ∈ (left.sub right).unknowns, unknown ∉ before.state.eliminated :=
    fun unknown inside => reduced.not_mem_of_reaches
      (mem_unknowns_sides sides (Form.mem_unknowns_sub inside))
  have inRange : before.state.DifferenceInRange settings equation ↔
      (left.sub right).constant.modulusOverflows = false := by
    refine ⟨fun within => within left right created sides, fun within f g count found => ?_⟩
    rw [sides] at found
    cases found
    exact within
  have none : (∀ assignment, before.state.Agrees assignment →
        ¬ equation.Holds assignment before.state.created) ↔
      ∀ assignment, before.state.Agrees assignment → (left.sub right).value assignment ≠ 0 := by
    refine forall₂_congr fun assignment agrees => not_congr ?_
    rw [meaning assignment agrees, Form.value_sub leftExact rightExact, sub_eq_zero]
    rfl
  rw [solve_verdict_iff positive reduced sides (.inr rfl),
    pivotStep_inconsistent_iff positive differenceExact clear, inRange, none,
    forall_value_ne_zero_iff reduced differenceExact free]
  tauto

end Result

end Solver

end EquationText
