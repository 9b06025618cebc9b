import EquationText.Proofs.Solver.Elimination
import EquationText.Proofs.Solver.Evaluation

/-! # What solving does

Up to the moment when a pivot is recorded, solving an equation only reads the solver and counts the
unknowns it creates: the pivot and its form are a function of the solver and the equation
(`EquationText.Solver.nextPivot`). An accepted equation installs that pivot
(`EquationText.Solver.solve_ok`), and a refused one either has none or fails while installing it
(`EquationText.Solver.solve_error`).
-/

namespace EquationText

namespace Solver

variable {settings : Settings} {before after : Traced Solver} {equation : Expr} {value : Value}
  {left right : Value} {fault : Fault}

/-- The values of the sides of an equation, and the number of unknowns there are then. -/
def sides (settings : Settings) (solver : Solver) : Expr → Except Cause (Value × Value × Nat)
  | .binary .equation left right => do
    let (leftValue, middle) ← (solver.evaluate settings left).run solver.created
    let (rightValue, created) ← (solver.evaluate settings right).run middle
    return (leftValue, rightValue, created)
  | _ => .error (.solving .notAnEquation)

/-- The sides of an equation are evaluated one after the other. -/
theorem sides_eq_ok {solver : Solver} {created : Nat}
    (ok : solver.sides settings equation = .ok (left, right, created)) :
    ∃ leftExpr rightExpr middle, equation = .binary .equation leftExpr rightExpr ∧
      (solver.evaluate settings leftExpr).run solver.created = .ok (left, middle) ∧
      (solver.evaluate settings rightExpr).run middle = .ok (right, created) := by
  unfold sides at ok
  split at ok
  · rename_i leftExpr rightExpr
    obtain ⟨⟨leftFound, middle⟩, leftRun, ok⟩ := except_bind_eq_ok ok
    obtain ⟨⟨rightFound, last⟩, rightRun, ok⟩ := except_bind_eq_ok ok
    cases ok
    exact ⟨leftExpr, rightExpr, middle, rfl, leftRun, rightRun⟩
  · cases ok

theorem sides_created {solver : Solver} {created : Nat}
    (ok : solver.sides settings equation = .ok (left, right, created)) :
    created = solver.created + equation.anonymousCount := by
  obtain ⟨leftExpr, rightExpr, middle, rfl, leftRun, rightRun⟩ := sides_eq_ok ok
  rw [evaluate_created rightRun, evaluate_created leftRun, Expr.anonymousCount, Nat.add_assoc]

/-- The sides mention what the forms of the names mention and what their evaluation created. -/
theorem mem_unknowns_sides {solver : Solver} {created : Nat} {unknown : Unknown}
    (ok : solver.sides settings equation = .ok (left, right, created))
    (member : unknown ∈ left.unknowns ∨ unknown ∈ right.unknowns) :
    solver.Reaches equation.names solver.created created unknown := by
  obtain ⟨leftExpr, rightExpr, middle, rfl, leftRun, rightRun⟩ := sides_eq_ok ok
  have leftCount := evaluate_created leftRun
  have rightCount := evaluate_created rightRun
  rcases member with inside | inside
  · exact (mem_unknowns_evaluate leftRun inside).mono (by simp [Expr.names]) (by omega) (by omega)
  · exact (mem_unknowns_evaluate rightRun inside).mono (by simp [Expr.names]) (by omega) (by omega)

/-- Stops if equations are reported and a side cannot be described. -/
def checkReport (settings : Settings) (solver : Solver) (left right : Value) : Except Cause Unit :=
  if solver.verbose then do
    let _ ← solver.describeValue settings left
    let _ ← solver.describeValue settings right
    return ()
  else return ()

/-- The pivot of the difference of two values. -/
def pivotOf (settings : Settings) (left right : Value) : Except Cause (Unknown × Form) :=
  match left, right with
  | .form f, .form g => pivotStep settings (f.sub g)
  | _, _ => .error (.solving .inconsistent)

/-- Stops if the form of an unknown is a constant beyond the range of doubles. -/
def checkRecord (settings : Settings) (unknown : Unknown) (form : Form) : Except Cause Unit :=
  if form.isConstant && !form.constant.isFinite then
    .error (.solving (.valueRange (unknown.text settings.anonymousWord)))
  else return ()

/-- The pivot that solving an equation records, with its form, or why it records none. -/
def nextPivot (settings : Settings) (solver : Solver) (equation : Expr) :
    Except Cause (Unknown × Form) := do
  let (left, right, _) ← solver.sides settings equation
  solver.checkReport settings left right
  let (unknown, solution) ← pivotOf settings left right
  checkRecord settings unknown solution
  return (unknown, solution)

/-! ## Evaluating and reporting the sides -/

theorem valueOf_ok {expr : Expr}
    (run : valueOf settings expr before = (.ok value, after)) :
    ∃ created, (before.state.evaluate settings expr).run before.state.created =
        .ok (value, created) ∧ after.state = { before.state with created } := by
  unfold valueOf at run
  rw [Action.run_bind_of_ok Action.run_get] at run
  obtain ⟨⟨found, created⟩, middle, evaluated, later⟩ := Action.run_bind_eq_ok run
  obtain ⟨ok, rfl⟩ := Action.run_ofExcept_eq_ok evaluated
  cases later
  exact ⟨created, ok, rfl⟩

theorem valueOf_error {expr : Expr}
    (run : valueOf settings expr before = (.error fault, after)) :
    (before.state.evaluate settings expr).run before.state.created = .error fault.cause ∧
      fault = fault.cause.unplaced ∧ after = before := by
  unfold valueOf at run
  rw [Action.run_bind_of_ok Action.run_get] at run
  rcases Action.run_bind_eq_error run with failed | ⟨_, middle, _, later⟩
  · exact Action.run_ofExcept_eq_error failed
  · cases later

/-- A report that succeeds changes nothing but the log. -/
theorem checkReport_of_ok
    (run : reportEquation settings left right before = (.ok (), after)) :
    before.state.checkReport settings left right = .ok () ∧ after.state = before.state := by
  unfold reportEquation at run
  rw [Action.run_bind_of_ok Action.run_get] at run
  by_cases verbose : before.state.verbose = true
  · rw [if_pos verbose] at run
    obtain ⟨leftText, middle, first, later⟩ := Action.run_bind_eq_ok run
    obtain ⟨leftOk, rfl⟩ := Action.run_ofExcept_eq_ok first
    obtain ⟨rightText, last, second, reported⟩ := Action.run_bind_eq_ok later
    obtain ⟨rightOk, rfl⟩ := Action.run_ofExcept_eq_ok second
    cases reported
    rw [checkReport, if_pos verbose, leftOk, rightOk]
    exact ⟨rfl, rfl⟩
  · rw [if_neg verbose] at run
    cases run
    exact ⟨if_neg verbose, rfl⟩

/-- A report that fails leaves the solver and the log as they are. -/
theorem checkReport_of_error
    (run : reportEquation settings left right before = (.error fault, after)) :
    before.state.checkReport settings left right = .error fault.cause ∧
      fault = fault.cause.unplaced ∧ after = before := by
  unfold reportEquation at run
  rw [Action.run_bind_of_ok Action.run_get] at run
  by_cases verbose : before.state.verbose = true
  · rw [if_pos verbose] at run
    rw [checkReport, if_pos verbose]
    rcases Action.run_bind_eq_error run with failed | ⟨leftText, middle, first, later⟩
    · obtain ⟨error, placed, rfl⟩ := Action.run_ofExcept_eq_error failed
      rw [error]
      exact ⟨rfl, placed, rfl⟩
    · obtain ⟨leftOk, rfl⟩ := Action.run_ofExcept_eq_ok first
      rw [leftOk]
      rcases Action.run_bind_eq_error later with failed | ⟨rightText, last, _, reported⟩
      · obtain ⟨error, placed, rfl⟩ := Action.run_ofExcept_eq_error failed
        rw [error]
        exact ⟨rfl, placed, rfl⟩
      · cases reported
  · rw [if_neg verbose] at run
    cases run

/-! ## Eliminating the difference of the sides -/

theorem checkRecord_of_recordable {unknown : Unknown} {form : Form} (recordable : IsRecordable form) :
    checkRecord settings unknown form = .ok () := by
  have within : (form.isConstant && !form.constant.isFinite) = false := by
    simpa [IsRecordable] using recordable
  rw [checkRecord, within]
  rfl

theorem checkRecord_of_not_recordable {unknown : Unknown} {form : Form}
    (beyond : ¬ IsRecordable form) :
    checkRecord settings unknown form =
      .error (.solving (.valueRange (unknown.text settings.anonymousWord))) := by
  have outside : (form.isConstant && !form.constant.isFinite) = true := by
    simpa [IsRecordable] using beyond
  rw [checkRecord, outside]
  rfl

theorem equate_eq (settings : Settings) (left right : Value) :
    equate settings left right =
      Action.ofExcept (pivotOf settings left right) >>= fun pivot =>
        install settings pivot.1 pivot.2 := by
  cases left <;> cases right <;> rfl

theorem pivotOf_eq_ok {pivot : Unknown × Form} (ok : pivotOf settings left right = .ok pivot) :
    ∃ f g, left = .form f ∧ right = .form g ∧ pivotStep settings (f.sub g) = .ok pivot := by
  cases left with
  | form f =>
      cases right with
      | form g => exact ⟨f, g, rfl, rfl, ok⟩
      | infinite => cases ok
  | infinite => cases ok

/-! ## Solving -/

/-- What an accepted equation does to a solver: its sides have the forms `left` and `right`, and the
form `solution` of the unknown `unknown` is installed. -/
structure Accepts (settings : Settings) (before : Solver) (equation : Expr) (after : Solver)
    (left right : Form) (created : Nat) (unknown : Unknown) (solution : Form) : Prop where
  sides : before.sides settings equation = .ok (.form left, .form right, created)
  pivot : pivotStep settings (left.sub right) = .ok (unknown, solution)
  next : before.nextPivot settings equation = .ok (unknown, solution)
  recordable : IsRecordable solution
  others : ∀ entry ∈ place unknown solution before.known, entry.2.mentions unknown = true →
    IsRecordable (rewritten settings unknown solution entry.2)
  after : after = { before with created }.installed settings unknown solution

/-- Evaluating the sides in a run gives their values, and leaves nothing but the count of created unknowns. -/
theorem sides_of_runs {leftExpr rightExpr : Expr} {first second : Traced Solver}
    (leftRun : valueOf settings leftExpr before = (.ok left, first))
    (rightRun : valueOf settings rightExpr first = (.ok right, second)) :
    ∃ created,
      before.state.sides settings (.binary .equation leftExpr rightExpr) =
        .ok (left, right, created) ∧
      second.state = { before.state with created } := by
  obtain ⟨middle, leftOk, firstState⟩ := valueOf_ok leftRun
  obtain ⟨created, rightOk, secondState⟩ := valueOf_ok rightRun
  rw [firstState] at rightOk secondState
  have rightFrom : (before.state.evaluate settings rightExpr).run middle = .ok (right, created) :=
    rightOk
  refine ⟨created, ?_, secondState⟩
  simp only [sides, leftOk, except_ok_bind, rightFrom]
  rfl

/-- The pivot of an equation is the one of the values of its sides. -/
theorem nextPivot_of_sides {created : Nat}
    (ok : before.state.sides settings equation = .ok (left, right, created)) :
    before.state.nextPivot settings equation =
      (before.state.checkReport settings left right >>= fun _ =>
        pivotOf settings left right >>= fun pivot =>
          checkRecord settings pivot.1 pivot.2 >>= fun _ => .ok pivot) := by
  rw [nextPivot, ok]
  rfl

/-- An equation that is solved is accepted: both sides evaluate, their difference has a pivot, and the solution for
it is installed. -/
theorem solve_ok {bindings : List Binding}
    (run : solve settings equation before = (.ok bindings, after)) :
    ∃ left right created unknown solution,
      Accepts settings before.state equation after.state left right created unknown solution := by
  unfold solve at run
  split at run
  · rename_i leftExpr rightExpr
    rw [Action.run_bind_of_ok (Action.run_report ..)] at run
    obtain ⟨left, first, leftRun, run⟩ := Action.run_bind_eq_ok run
    obtain ⟨right, second, rightRun, run⟩ := Action.run_bind_eq_ok run
    obtain ⟨_, third, reportRun, run⟩ := Action.run_bind_eq_ok run
    rw [Action.run_bind_of_ok Action.run_get] at run
    obtain ⟨_, fourth, equateRun, run⟩ := Action.run_bind_eq_ok run
    rw [Action.run_bind_of_ok Action.run_get] at run
    obtain ⟨_, rfl⟩ := Action.run_ofExcept_eq_ok run
    obtain ⟨created, sides, secondState⟩ := sides_of_runs leftRun rightRun
    obtain ⟨reported, thirdState⟩ := checkReport_of_ok reportRun
    rw [secondState] at reported
    rw [equate_eq] at equateRun
    obtain ⟨⟨unknown, solution⟩, last, pivotRun, installRun⟩ := Action.run_bind_eq_ok equateRun
    obtain ⟨pivotOk, rfl⟩ := Action.run_ofExcept_eq_ok pivotRun
    obtain ⟨f, g, rfl, rfl, pivot⟩ := pivotOf_eq_ok pivotOk
    obtain ⟨recordable, others, state⟩ := install_ok installRun
    rw [thirdState, secondState] at others state
    refine ⟨f, g, created, unknown, solution, sides, pivot, ?_, recordable, others, state⟩
    rw [nextPivot_of_sides sides,
      show before.state.checkReport settings (.form f) (.form g) = _ from reported, except_ok_bind,
      pivotOk, except_ok_bind, checkRecord_of_recordable recordable]
    rfl
  · cases run

theorem nextPivot_eq_ok {solver : Solver} {unknown : Unknown} {solution : Form}
    (ok : solver.nextPivot settings equation = .ok (unknown, solution)) :
    ∃ left right created, solver.sides settings equation = .ok (.form left, .form right, created) ∧
      pivotStep settings (left.sub right) = .ok (unknown, solution) := by
  obtain ⟨⟨left, right, created⟩, sides, ok⟩ := except_bind_eq_ok ok
  obtain ⟨_, _, ok⟩ := except_bind_eq_ok ok
  obtain ⟨⟨found, form⟩, pivot, ok⟩ := except_bind_eq_ok ok
  obtain ⟨_, _, ok⟩ := except_bind_eq_ok ok
  cases ok
  obtain ⟨f, g, rfl, rfl, step⟩ := pivotOf_eq_ok pivot
  exact ⟨f, g, created, sides, step⟩

/-- What stops the installation of a pivot. -/
theorem equate_error (run : equate settings left right before = (.error fault, after)) :
    fault = fault.cause.unplaced ∧
      (((pivotOf settings left right >>= fun pivot =>
            checkRecord settings pivot.1 pivot.2 >>= fun _ => .ok pivot) = .error fault.cause ∧
          after = before) ∨
        ∃ unknown solution, pivotOf settings left right = .ok (unknown, solution) ∧
          IsRecordable solution ∧
          install settings unknown solution before = (.error fault, after)) := by
  rw [equate_eq] at run
  rcases Action.run_bind_eq_error run with failed | ⟨⟨unknown, solution⟩, last, pivotRun, failed⟩
  · obtain ⟨error, placed, rfl⟩ := Action.run_ofExcept_eq_error failed
    refine ⟨placed, .inl ⟨?_, rfl⟩⟩
    rw [error, except_error_bind]
  · obtain ⟨pivotOk, unchanged⟩ := Action.run_ofExcept_eq_ok pivotRun
    rw [unchanged] at failed
    by_cases recordable : IsRecordable solution
    · exact ⟨(install_error failed).1,
        .inr ⟨unknown, solution, pivotOk, recordable, failed⟩⟩
    · rw [install_of_not_recordable recordable] at failed
      cases failed
      refine ⟨rfl, .inl ⟨?_, rfl⟩⟩
      rw [pivotOk, except_ok_bind, checkRecord_of_not_recordable recordable]
      rfl

/-- What a refused equation leaves: either no pivot is recorded, or one is and the run stops while it
is installed, or everything is installed and a new name cannot be translated. -/
theorem solve_error (run : solve settings equation before = (.error fault, after)) :
    fault = fault.cause.unplaced ∧
      ((before.state.nextPivot settings equation = .error fault.cause ∧
          ∃ created, after.state = { before.state with created }) ∨
        ∃ unknown solution created middle,
          before.state.nextPivot settings equation = .ok (unknown, solution) ∧
          IsRecordable solution ∧ middle.state = { before.state with created } ∧
          (install settings unknown solution middle = (.error fault, after) ∨
            install settings unknown solution middle = (.ok (), after) ∧
              after.state.translateAll settings (newNames middle.state after.state) =
                .error fault.cause)) := by
  unfold solve at run
  split at run
  · rename_i leftExpr rightExpr
    rw [Action.run_bind_of_ok (Action.run_report ..)] at run
    rcases Action.run_bind_eq_error run with failed | ⟨left, first, leftRun, run⟩
    · obtain ⟨error, placed, rfl⟩ := valueOf_error failed
      refine ⟨placed, .inl ⟨?_, _, rfl⟩⟩
      simp only [nextPivot, sides, error, except_error_bind]
    rcases Action.run_bind_eq_error run with failed | ⟨right, second, rightRun, run⟩
    · obtain ⟨middle, leftOk, firstState⟩ := valueOf_ok leftRun
      obtain ⟨error, placed, rfl⟩ := valueOf_error failed
      rw [firstState] at error ⊢
      have rightFrom : (before.state.evaluate settings rightExpr).run middle =
        .error fault.cause := error
      refine ⟨placed, .inl ⟨?_, _, rfl⟩⟩
      simp only [nextPivot, sides, leftOk, except_ok_bind, rightFrom, except_error_bind]
    obtain ⟨created, sides, secondState⟩ := sides_of_runs leftRun rightRun
    rw [nextPivot_of_sides sides]
    rcases Action.run_bind_eq_error run with failed | ⟨_, third, reportRun, run⟩
    · obtain ⟨error, placed, rfl⟩ := checkReport_of_error failed
      rw [secondState] at error ⊢
      refine ⟨placed, .inl ⟨?_, _, rfl⟩⟩
      rw [show before.state.checkReport settings left right = _ from error, except_error_bind]
    obtain ⟨reported, thirdState⟩ := checkReport_of_ok reportRun
    rw [secondState] at reported thirdState
    rw [show before.state.checkReport settings left right = _ from reported, except_ok_bind]
    rw [Action.run_bind_of_ok Action.run_get] at run
    rcases Action.run_bind_eq_error run with failed | ⟨_, fourth, equateRun, run⟩
    · obtain ⟨placed, ⟨error, rfl⟩ | ⟨unknown, solution, pivotOk, recordable, installing⟩⟩ :=
        equate_error failed
      · exact ⟨placed, .inl ⟨error, _, thirdState⟩⟩
      · refine ⟨placed, .inr ⟨unknown, solution, created, third, ?_, recordable, thirdState,
          .inl installing⟩⟩
        rw [pivotOk, except_ok_bind, checkRecord_of_recordable recordable]
        rfl
    · rw [Action.run_bind_of_ok Action.run_get] at run
      obtain ⟨error, placed, rfl⟩ := Action.run_ofExcept_eq_error run
      rw [equate_eq] at equateRun
      obtain ⟨⟨unknown, solution⟩, last, pivotRun, installRun⟩ := Action.run_bind_eq_ok equateRun
      obtain ⟨pivotOk, unchanged⟩ := Action.run_ofExcept_eq_ok pivotRun
      rw [unchanged] at installRun
      have recordable := (install_ok installRun).1
      refine ⟨placed, .inr ⟨unknown, solution, created, third, ?_, recordable, thirdState,
        .inr ⟨installRun, error⟩⟩⟩
      rw [pivotOk, except_ok_bind, checkRecord_of_recordable recordable]
      rfl
  · rename_i notEquation
    cases run
    refine ⟨rfl, .inl ⟨?_, _, rfl⟩⟩
    rw [nextPivot, sides]
    · rfl
    · exact notEquation

end Solver

end EquationText
