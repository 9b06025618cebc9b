import EquationText.Proofs.Solver.Outcome
import EquationText.Proofs.Solver.Refusal

/-! # What a solver knows about its equations

A fresh solver that has accepted some arithmetic equations knows exactly their solutions: an assignment
satisfies all of them, with the imaginary unit for `i`, if and only if every eliminated unknown has the
value of its form. From there it gives the right verdict on the next equation
(`EquationText.Solver.solutions_of_accepted`).
-/

namespace EquationText

namespace Solver

variable {settings : Settings} {before after : Traced Solver} {equations : List Expr}
  {assignment : Assignment}

/-- Solves equations one after another, up to the first that is refused. -/
def solveAll (settings : Settings) : List Expr → Action Solver Unit
  | [] => pure ()
  | equation :: rest => do
    let _ ← solve settings equation
    solveAll settings rest

/-- Whether nothing that counts as zero without being zero is dropped while equations are solved one
after another. -/
def RunIsClear (settings : Settings) : List Expr → Traced Solver → Prop
  | [], _ => True
  | equation :: rest, before =>
    before.state.IsClear settings equation ∧
      RunIsClear settings rest (solve settings equation before).2

instance decidableRunIsClear (settings : Settings) :
    ∀ equations start, Decidable (RunIsClear settings equations start)
  | [], _ => .isTrue trivial
  | _ :: rest, _ => @instDecidableAnd _ _ _ (decidableRunIsClear settings rest _)

/-- A run that accepts arithmetic equations one after another, without dropping anything but zeros. -/
structure Accepted (settings : Settings) (equations : List Expr) (before after : Traced Solver) :
    Prop where
  arithmetic : ∀ equation ∈ equations, equation.isArithmeticEquation = true
  accepted : solveAll settings equations before = (.ok (), after)
  clear : RunIsClear settings equations before

/-- Whether an assignment satisfies some equations and gives `i` the imaginary unit. -/
def IsSolution (assignment : Assignment) (equations : List Expr) : Prop :=
  assignment (.named imaginaryName) = Complex.I ∧ Expr.HoldAll assignment 0 equations

/-- Whether a property holds of each of some equations and the solver before it, while they are solved
one after another. -/
def Throughout (settings : Settings) (property : Solver → Expr → Prop) :
    List Expr → Traced Solver → Prop
  | [], _ => True
  | equation :: rest, before =>
    property before.state equation ∧
      Throughout settings property rest (solve settings equation before).2

theorem RunIsClear.losesNothing (clear : RunIsClear settings equations before) :
    Throughout settings (LosesNothing settings assignment) equations before := by
  induction equations generalizing before with
  | nil => trivial
  | cons equation rest ih => exact ⟨clear.1.losesNothing, ih clear.2⟩

/-- A run of equations that are accepted starts with one that is, and goes on from there. -/
theorem solveAll_cons_ok {equation : Expr}
    (run : solveAll settings (equation :: equations) before = (.ok (), after)) :
    ∃ left right created unknown solution middle,
      Accepts settings before.state equation middle.state left right created unknown solution ∧
      (solve settings equation before).2 = middle ∧
      solveAll settings equations middle = (.ok (), after) ∧
      middle.state.created = before.state.created + equation.anonymousCount := by
  obtain ⟨bindings, middle, first, others⟩ := Action.run_bind_eq_ok run
  obtain ⟨left, right, created, unknown, solution, accepts⟩ := solve_ok first
  refine ⟨left, right, created, unknown, solution, middle, accepts, ?_, others, ?_⟩
  · rw [first]
  · obtain ⟨known, solved, same⟩ :=
      installed_eq settings unknown solution { before.state with created }
    rw [accepts.after, same]
    exact sides_created accepts.sides

section Run

variable (positive : 0 < settings.cutoff)
  (arithmetic : ∀ equation ∈ equations, equation.isArithmeticEquation = true)
  (run : solveAll settings equations before = (.ok (), after))
  (reduced : before.state.IsReduced) (exact : before.state.IsExact)
include positive arithmetic run reduced exact

/-- A run of accepted equations cuts the assignments that agree with the solver down to those that
satisfy the equations, among the assignments at which nothing is lost. -/
theorem agrees_solveAll_iff :
    after.state.IsReduced ∧ after.state.IsExact ∧
      after.state.created = before.state.created + Expr.totalCount equations ∧
      ∀ assignment, Throughout settings (LosesNothing settings assignment) equations before →
        (after.state.Agrees assignment ↔ before.state.Agrees assignment ∧
          Expr.HoldAll assignment before.state.created equations) := by
  induction equations generalizing before with
  | nil =>
      cases run
      exact ⟨reduced, exact, rfl, fun assignment _ => (and_iff_left trivial).symm⟩
  | cons equation rest ih =>
      obtain ⟨here, later⟩ := List.forall_mem_cons.mp arithmetic
      obtain ⟨left, right, created, unknown, solution, middle, accepts, rfl, others, count⟩ :=
        solveAll_cons_ok run
      obtain ⟨lastReduced, lastExact, total, agrees⟩ := ih later others (reduced.accept accepts)
        (exact_accept positive reduced exact here accepts)
      refine ⟨lastReduced, lastExact, ?_, fun assignment nothing => ?_⟩
      · rw [total, count, Expr.totalCount_cons, Nat.add_assoc]
      · rw [agrees assignment nothing.2, count, Expr.HoldAll,
          agrees_accept_iff positive reduced exact here accepts nothing.1, and_assoc]

end Run

theorem start_isExact (settings : Settings) (verbose : Bool) (maxDepth precision : Option Int) :
    (start settings verbose maxDepth precision).IsExact := by
  intro entry member
  rw [List.mem_singleton.mp member]
  exact .ofNumber rfl

theorem start_agrees_iff (settings : Settings) (verbose : Bool) (maxDepth precision : Option Int) :
    (start settings verbose maxDepth precision).Agrees assignment ↔
      assignment (.named imaginaryName) = Complex.I := by
  simp [Agrees, start]

section Fresh

variable {verbose : Bool} {maxDepth precision : Option Int} {log : Array Entry}
  (positive : 0 < settings.cutoff)
  (accepted : Accepted settings equations ⟨start settings verbose maxDepth precision, log⟩ after)
include positive accepted

/-- What is known of a solver that started fresh. -/
theorem Accepted.fresh :
    after.state.IsReduced ∧ after.state.IsExact ∧
      after.state.created = Expr.totalCount equations ∧
      ∀ assignment, IsSolution assignment equations ↔ after.state.Agrees assignment := by
  obtain ⟨reduced, exact, total, agrees⟩ :=
    agrees_solveAll_iff positive accepted.arithmetic accepted.accepted
      (start_isReduced settings verbose maxDepth precision)
      (start_isExact settings verbose maxDepth precision)
  refine ⟨reduced, exact, total.trans (Nat.zero_add _), fun assignment => ?_⟩
  rw [agrees assignment accepted.clear.losesNothing, start_agrees_iff]
  rfl

/-- After accepted equations the eliminated unknowns have the values of their forms exactly in the
solutions. The next equation that evaluates is refused as redundant exactly when every solution
satisfies it, and as inconsistent exactly when none does, provided its sides can be described, where
that is asked for, and their difference is not a constant whose modulus is beyond the range of doubles.
Otherwise it is accepted, unless a form is out of range. -/
theorem solutions_of_accepted :
    (∀ assignment, IsSolution assignment equations ↔
      ∀ entry ∈ after.state.known, assignment entry.1 = entry.2.value assignment) ∧
    ∀ next : Expr, next.isArithmeticEquation = true →
      (∃ sides, after.state.sides settings next = .ok sides) →
      after.state.DifferenceIsClear settings next →
      ((solve settings next after).1 = .error (Cause.solving .redundant).unplaced ↔
        after.state.CanReport settings next ∧
          ∀ assignment, IsSolution assignment equations →
            IsSolution assignment (equations ++ [next])) ∧
      ((solve settings next after).1 = .error (Cause.solving .inconsistent).unplaced ↔
        (after.state.CanReport settings next ∧ after.state.DifferenceInRange settings next) ∧
          ∀ assignment, IsSolution assignment equations →
            ¬ IsSolution assignment (equations ++ [next])) ∧
      ((∃ bindings, (solve settings next after).1 = .ok bindings) ∨
        ∃ cause, (solve settings next after).1 = .error cause.unplaced ∧
          (IsVerdict cause ∨ after.state.StopsShort settings next cause)) := by
  obtain ⟨reduced, exact, total, solution⟩ := accepted.fresh positive
  refine ⟨solution, ?_⟩
  rintro next arithmetic ⟨⟨leftValue, rightValue, created⟩, sides⟩ clear
  obtain ⟨leftExact, rightExact, _⟩ := sides_exact positive exact arithmetic sides
  cases leftValue with
  | infinite => cases leftExact
  | form left =>
      cases rightValue with
      | infinite => cases rightExact
      | form right =>
          have extended : ∀ assignment, IsSolution assignment equations →
              (IsSolution assignment (equations ++ [next]) ↔
                next.Holds assignment after.state.created) := by
            rintro assignment ⟨unit, holds⟩
            rw [IsSolution, Expr.holdAll_append, total, Nat.zero_add]
            simp only [unit, holds, true_and, Expr.HoldAll, and_true]
          have differenceClear := clear left right created sides
          rw [redundant_iff positive reduced exact arithmetic sides differenceClear,
            inconsistent_iff positive reduced exact arithmetic sides differenceClear]
          refine ⟨and_congr_right fun _ => ?_, and_congr_right fun _ => ?_,
            solve_outcome positive reduced sides⟩
          · refine forall_congr' fun assignment => ?_
            rw [← solution assignment]
            exact forall_congr' fun holds => (extended assignment holds).symm
          · refine forall_congr' fun assignment => ?_
            rw [← solution assignment]
            exact forall_congr' fun holds => not_congr (extended assignment holds).symm

end Fresh

/-- The tolerance has to be positive: where not even zero counts as zero, a division by zero is not
refused, and `x = 1 / (1 / 0)` has the solution `x = 0`. -/
example :
    let settings : Settings := { tolerance := .finite 0 }
    let one : Expr := .number (.ofDecimal 1 0)
    let quotient : Expr := .binary .quotient one (.binary .quotient one (.number (.ofDecimal 0 0)))
    (solve settings (.binary .equation (.named "x") quotient)
      ⟨start settings false none none, #[]⟩).2.state.solved = [("x", .ofRat 0)] := by
  decide +kernel

/-- A fresh solver with the default settings and an empty log. -/
def fresh : Traced Solver := ⟨start {} false none none, #[]⟩

/-- The equations `x + y = 10` and `x - y = 2`. -/
def sumAndDifference : List Expr := [
  .binary .equation (.binary .sum (.named "x") (.named "y")) (.number (.ofDecimal 10 0)),
  .binary .equation (.binary .difference (.named "x") (.named "y")) (.number (.ofDecimal 2 0))]

/-- The equation `x + x = 12`. -/
def doubled : Expr :=
  .binary .equation (.binary .sum (.named "x") (.named "x")) (.number (.ofDecimal 12 0))

theorem sumAndDifference_accepted :
    Accepted {} sumAndDifference fresh (solveAll {} sumAndDifference fresh).2 where
  arithmetic := by decide
  accepted := by
    have ok : (solveAll {} sumAndDifference fresh).1 = .ok () := by decide +kernel
    exact Prod.ext ok rfl
  clear := by decide +kernel

theorem sumAndDifference_known :
    (solveAll {} sumAndDifference fresh).2.state.known =
      [(.named "i", .ofNumber .imaginaryUnit), (.named "x", .ofRat 6), (.named "y", .ofRat 4)] := by
  decide +kernel

theorem doubled_sides :
    (solveAll {} sumAndDifference fresh).2.state.sides {} doubled =
      .ok (.form (.ofRat 12), .form (.ofRat 12), 0) := by
  decide +kernel

theorem doubled_redundant :
    (solve {} doubled (solveAll {} sumAndDifference fresh).2).1 =
      .error (Cause.solving .redundant).unplaced := by
  decide +kernel

/-- The solutions of `x + y = 10` and `x - y = 2` are those with `x = 6` and `y = 4`, and all of them
satisfy `x + x = 12`. -/
theorem solutions_of_sumAndDifference :
    (∀ assignment, IsSolution assignment sumAndDifference ↔
      assignment (.named "i") = Complex.I ∧ assignment (.named "x") = 6 ∧
        assignment (.named "y") = 4) ∧
      ∀ assignment, IsSolution assignment sumAndDifference →
        IsSolution assignment (sumAndDifference ++ [doubled]) := by
  have positive : 0 < ({} : Settings).cutoff := by decide +kernel
  obtain ⟨solutions, next⟩ := solutions_of_accepted positive sumAndDifference_accepted
  constructor
  · intro assignment
    rw [solutions, sumAndDifference_known]
    simp [Form.ofRat]
  · have clear : (solveAll {} sumAndDifference fresh).2.state.DifferenceIsClear {} doubled := by
      intro left right created sides
      rw [doubled_sides] at sides
      cases sides
      decide +kernel
    exact ((next doubled (by decide) ⟨_, doubled_sides⟩ clear).1.mp doubled_redundant).2

/-- The equation `1.7e308 + 1.7e308 * i = 0`. -/
def largeModulus : Expr :=
  .binary .equation
    (.binary .sum (.number (.ofDecimal 17 307))
      (.binary .product (.number (.ofDecimal 17 307)) (.named "i")))
    (.number (.ofDecimal 0 0))

theorem largeModulus_sides :
    fresh.state.sides {} largeModulus =
      .ok (.form (.ofNumber ⟨.exact large, .exact large⟩), .form (.ofRat 0), 0) := by
  decide +kernel

theorem largeModulus_refused :
    (solve {} largeModulus fresh).1 = .error Cause.modulusRange.unplaced := by
  decide +kernel

/-- No equation that nothing satisfies need be refused as inconsistent: the modulus of the difference of
its sides can be beyond the range of doubles. -/
theorem inconsistent_not_reported :
    ¬ ∀ (equations : List Expr) (after : Traced Solver) (next : Expr),
      Accepted {} equations fresh after → next.isArithmeticEquation = true →
      (∃ sides, after.state.sides {} next = .ok sides) → after.state.DifferenceIsClear {} next →
      ((solve {} next after).1 = .error (Cause.solving .inconsistent).unplaced ↔
        ∀ assignment, IsSolution assignment equations →
          ¬ IsSolution assignment (equations ++ [next])) := by
  intro reported
  have nothing : Accepted {} [] fresh fresh := ⟨by simp, rfl, trivial⟩
  have clear : fresh.state.DifferenceIsClear {} largeModulus := by
    intro left right created sides
    rw [largeModulus_sides] at sides
    cases sides
    decide +kernel
  have unsatisfied : ∀ assignment, IsSolution assignment [] →
      ¬ IsSolution assignment ([] ++ [largeModulus]) := by
    rintro assignment ⟨unit, _⟩ ⟨_, holds, _⟩
    have positive : 0 < ({} : Settings).cutoff := by decide +kernel
    obtain ⟨_, _, meaning⟩ :=
      sides_exact positive (start_isExact {} false none none) (by decide) largeModulus_sides
    have same := (meaning assignment ((start_agrees_iff {} false none none).mpr unit)).mp holds
    have vanishes : (⟨.exact large, .exact large⟩ : Number).toComplex = 0 := by
      simpa [Value.value, Form.ofRat] using same
    exact absurd ((Number.toComplex_eq_zero_iff _).mp vanishes).1 (by decide +kernel)
  have refused := (reported [] fresh largeModulus nothing (by decide) ⟨_, largeModulus_sides⟩ clear).mpr
    unsatisfied
  rw [largeModulus_refused] at refused
  cases refused

end Solver

end EquationText
