import EquationText.Proofs.Solver.Determined
import EquationText.Proofs.Solver.Factors

/-! # What the tolerance leaves determined

Dropping what counts as zero can solve a name that the equations leave open: a solver that accepts
`x + 1e-7 * y = 3` solves `x` with `3` (`EquationText.Solver.solved_not_determined`). Still, two solutions
give a solved name the same value when each form that is simplified along the run loses the same value
at both, and the numbers that forms were scaled by have these values at one of them. A solution at
which nothing is lost gives the name the number it was solved with
(`EquationText.Solver.solved_of_equal_losses`).
-/

namespace EquationText

namespace Solver

variable {settings : Settings} {solver before after : Solver} {first second : Assignment}

/-- Whether each form that is simplified when an equation is solved loses the same value at two
assignments. -/
def LosesAlike (settings : Settings) (first second : Assignment) (solver : Solver)
    (equation : Expr) : Prop :=
  ∀ form ∈ solver.simplifications settings equation,
    form.dropped settings.cutoff first = form.dropped settings.cutoff second

section Elimination

variable {difference form solution : Form} {unknown : Unknown} {factor : Number}

/-- Where the eliminated form keeps its value, a pivot changes as its form does. -/
theorem gap_pivot (exact : difference.IsExact)
    (ok : pivotStep settings difference = .ok (unknown, solution))
    (alike : ∀ form ∈ solver.eliminationForms settings difference,
      form.dropped settings.cutoff first = form.dropped settings.cutoff second)
    (same : difference.gap first second = 0) :
    first unknown - second unknown = solution.gap first second := by
  obtain ⟨factor, member, found, rfl⟩ := Form.pivotStep_eq_ok ok
  have kept := Form.gap_simplify (alike _ (List.mem_cons_self ..))
  rw [Form.gap_simplify (alike _ (mem_eliminationForms_solvedFor found)),
    Form.gap_solvedFor (exact.simplify _) member (kept.trans same)]

theorem gap_rewritten (exact : form.IsExact) (value : solution.IsExact)
    (alike : form.mentions unknown = true →
      (form.substitute unknown solution).dropped settings.cutoff first =
        (form.substitute unknown solution).dropped settings.cutoff second)
    (stands : first unknown - second unknown = solution.gap first second) :
    (rewritten settings unknown solution form).gap first second = form.gap first second := by
  by_cases mentioned : form.mentions unknown = true
  · rw [rewritten, if_pos mentioned, Form.gap_simplify (alike mentioned),
      Form.gap_substitute exact value stands]
  · rw [rewritten, if_neg mentioned]

end Elimination

/-- Two assignments that satisfy an accepted equation, and lose the same in solving it, still move
along with the forms that are known after it. -/
theorem MovesAlong.accept (moves : before.MovesAlong first second) (positive : 0 < settings.cutoff)
    (reduced : before.IsReduced) (exact : before.IsExact) {equation : Expr}
    (arithmetic : equation.isArithmeticEquation = true) {left right solution : Form} {created : Nat}
    {unknown : Unknown}
    (accepts : Accepts settings before equation after left right created unknown solution)
    (alike : before.LosesAlike settings first second equation)
    (factors : before.FactorsStand settings first equation before.created)
    (one : equation.Holds first before.created) (other : equation.Holds second before.created) :
    after.MovesAlong first second := by
  obtain ⟨leftExact, rightExact, _⟩ := sides_exact positive exact arithmetic accepts.sides
  have difference := Form.IsExact.sub leftExact rightExact
  have value := pivotStep_exact difference accepts.pivot
  rw [LosesAlike, simplifications_eq accepts.sides] at alike
  have same : (left.sub right).gap first second = 0 := by
    rw [Form.gap_sub leftExact rightExact, sub_eq_zero]
    exact sides_gap positive exact moves arithmetic accepts.sides factors one other
  have stands := gap_pivot difference accepts.pivot alike same
  intro entry member
  rcases (reduced.mem_known_accept accepts).mp member with ⟨old, known, rfl⟩ | rfl
  · refine (moves old known).trans (gap_rewritten (exact old known) value ?_ stands).symm
    intro mentioned
    obtain ⟨factor, _, found, rfl⟩ := Form.pivotStep_eq_ok accepts.pivot
    exact alike _ (mem_eliminationForms_substitute found known mentioned)
  · exact stands

section Run

variable {before after : Traced Solver} {equations : List Expr}
  (positive : 0 < settings.cutoff)
  (arithmetic : ∀ equation ∈ equations, equation.isArithmeticEquation = true)
include positive arithmetic

/-- Two assignments that satisfy a run of accepted equations, and lose the same in each, move along with
the forms that are known at the end. -/
theorem MovesAlong.solveAll (moves : before.state.MovesAlong first second)
    (run : solveAll settings equations before = (.ok (), after))
    (reduced : before.state.IsReduced) (exact : before.state.IsExact)
    (alike : Throughout settings (LosesAlike settings first second) equations before)
    (factors : Throughout settings (fun solver equation =>
      solver.FactorsStand settings first equation solver.created) equations before)
    (one : Expr.HoldAll first before.state.created equations)
    (other : Expr.HoldAll second before.state.created equations) :
    after.state.MovesAlong first second := by
  induction equations generalizing before with
  | nil =>
      cases run
      exact moves
  | cons equation rest ih =>
      obtain ⟨here, later⟩ := List.forall_mem_cons.mp arithmetic
      obtain ⟨left, right, created, unknown, solution, middle, accepts, rfl, others, count⟩ :=
        solveAll_cons_ok run
      have next := moves.accept positive reduced exact here accepts alike.1 factors.1 one.1 other.1
      refine ih later next others (reduced.accept accepts)
        (exact_accept positive reduced exact here accepts) alike.2 factors.2 ?_ ?_
      · rw [count]
        exact one.2
      · rw [count]
        exact other.2

/-- After a fresh solver has accepted arithmetic equations, two solutions give a solved name the same
value when each form that was simplified loses the same at both, and the factors that were taken for
numbers have these values at the first. A solution at which nothing is lost gives the name the number it
was solved with. The names that are bound are the solved ones. -/
theorem solved_of_equal_losses {verbose : Bool} {maxDepth precision : Option Int} {log : Array Entry}
    (run : Solver.solveAll settings equations ⟨start settings verbose maxDepth precision, log⟩ =
      (.ok (), after)) :
    (∀ name number, (name, number) ∈ after.state.solved →
      (∀ first second, IsSolution first equations → IsSolution second equations →
        Throughout settings (LosesAlike settings first second) equations
          ⟨start settings verbose maxDepth precision, log⟩ →
        Throughout settings (fun solver equation =>
            solver.FactorsStand settings first equation solver.created) equations
          ⟨start settings verbose maxDepth precision, log⟩ →
        first (.named name) = second (.named name)) ∧
      ∀ assignment, IsSolution assignment equations →
        Throughout settings (LosesNothing settings assignment) equations
          ⟨start settings verbose maxDepth precision, log⟩ →
        assignment (.named name) = number.toComplex) ∧
    ∀ bindings, after.state.bindings settings = .ok bindings →
      bindings.map Prod.fst = after.state.solved.map Prod.fst := by
  have startReduced := start_isReduced settings verbose maxDepth precision
  have startExact := start_isExact settings verbose maxDepth precision
  obtain ⟨reduced, _, _, agrees⟩ :=
    agrees_solveAll_iff positive arithmetic run startReduced startExact
  refine ⟨fun name number solved => ⟨?_, ?_⟩, fun bindings listed => (translateAll_ok listed).1⟩
  · intro first second one other alike factors
    have moves : (start settings verbose maxDepth precision).MovesAlong first second := by
      intro entry member
      rw [List.mem_singleton.mp member, one.1, other.1, sub_self]
      exact (Form.gap_of_isConstant rfl).symm
    have last := MovesAlong.solveAll positive arithmetic moves run startReduced startExact alike
      factors one.2 other.2
    have same := last _ ((reduced.solved name number).mp solved).2
    rwa [Form.gap_of_isConstant rfl, sub_eq_zero] at same
  · intro assignment solution nothing
    have known := (agrees assignment nothing).mpr
      ⟨(start_agrees_iff settings verbose maxDepth precision).mpr solution.1, solution.2⟩
    rw [known _ ((reduced.solved name number).mp solved).2, Form.value_ofNumber]

end Run

/-- Factors have to stand for their values: with `x = 1e-7`, which solves `x` with zero, the equation
`w = x * y + 3` solves `w`. -/
example :
    let small : Expr :=
      .binary .equation (.named "x") (.number (.ofDecimal 1 (-7)))
    let multiple : Expr :=
      .binary .equation (.named "w")
        (.binary .sum (.binary .product (.named "x") (.named "y")) (.number (.ofDecimal 3 0)))
    (Solver.solveAll {} [small, multiple] fresh).2.state.solved = [("x", .ofRat 0), ("w", .ofRat 3)] := by
  decide +kernel

/-- The equation `x + 1e-7 * y = 3`. -/
def smallCoefficient : Expr :=
  .binary .equation
    (.binary .sum (.named "x") (.binary .product (.number (.ofDecimal 1 (-7))) (.named "y")))
    (.number (.ofDecimal 3 0))

theorem smallCoefficient_accepted :
    solveAll {} [smallCoefficient] fresh = (.ok (), (solveAll {} [smallCoefficient] fresh).2) := by
  have ok : (solveAll {} [smallCoefficient] fresh).1 = .ok () := by decide +kernel
  exact Prod.ext ok rfl

theorem smallCoefficient_solved :
    (solveAll {} [smallCoefficient] fresh).2.state.solved = [("x", .ofRat 3)] := by
  decide +kernel

theorem smallCoefficient_bindings :
    (solveAll {} [smallCoefficient] fresh).2.state.bindings {} = .ok [("x", some "3")] := by
  decide +kernel

/-- The form `x + 1e-7 * y - 3`. -/
def smallDifference : Form :=
  ⟨.ofRat (-3), [(.named "x", .ofRat 1), (.named "y", .ofRat (1 / 10000000))]⟩

theorem smallCoefficient_simplifications :
    fresh.state.simplifications {} smallCoefficient = [smallDifference, .ofRat 3] := by
  decide +kernel

theorem dropped_smallDifference (assignment : Assignment) :
    smallDifference.dropped ({} : Settings).cutoff assignment =
      1 / 10000000 * assignment (.named "y") := by
  have simplified : smallDifference.simplify ({} : Settings).cutoff =
      ⟨.ofRat (-3), [(.named "x", .ofRat 1)]⟩ := by
    decide +kernel
  rw [Form.dropped, simplified]
  simp [smallDifference, Form.value]

theorem dropped_three (assignment : Assignment) :
    (Form.ofRat 3).dropped ({} : Settings).cutoff assignment = 0 :=
  Form.dropped_eq_zero (by decide +kernel)

theorem isSolution_smallCoefficient_iff (assignment : Assignment) :
    IsSolution assignment [smallCoefficient] ↔ assignment (.named "i") = Complex.I ∧
      assignment (.named "x") + 1 / 10000000 * assignment (.named "y") = 3 := by
  have small : (Double.ofDecimal 1 (-7)).shortestValue? = some (1 / 10000000) := by decide +kernel
  have three : (Double.ofDecimal 3 0).shortestValue? = some 3 := by decide +kernel
  simp [IsSolution, Expr.HoldAll, Expr.Holds, smallCoefficient, Expr.value?, small, three,
    Operator.value?, imaginaryName, eq_comm]

/-- The equation `x + 1e-7 * y = 3` leaves `x` open, and a solver that accepts it binds `x`. -/
theorem solved_not_determined :
    ¬ ∀ (equations : List Expr) (after : Traced Solver) (bindings : List Binding),
      (∀ equation ∈ equations, equation.isArithmeticEquation = true) →
      solveAll {} equations fresh = (.ok (), after) → after.state.bindings {} = .ok bindings →
      ∀ name ∈ bindings.map Prod.fst, ∀ first second, IsSolution first equations →
        IsSolution second equations → first (.named name) = second (.named name) := by
  intro determined
  have same := determined [smallCoefficient] _ _ (by decide) smallCoefficient_accepted
    smallCoefficient_bindings "x" (by decide)
  let point (x y : ℂ) : Assignment := Expr.assign
    (fun name => if name = "x" then x else if name = "y" then y else Complex.I) 0
  have solution : ∀ x y, x + 1 / 10000000 * y = 3 → IsSolution (point x y) [smallCoefficient] := by
    intro x y holds
    exact (isSolution_smallCoefficient_iff _).mpr ⟨rfl, holds⟩
  have equal := same (point 3 0) (point 2 10000000) (solution 3 0 (by norm_num))
    (solution 2 10000000 (by norm_num))
  have apart : (3 : ℂ) = 2 := equal
  norm_num at apart

/-- The solutions of `x + 1e-7 * y = 3` that have the same `y` have the same `x`, and those with `y = 0`
have `x = 3`. -/
theorem solved_of_equal_losses_smallCoefficient :
    (∀ first second, IsSolution first [smallCoefficient] → IsSolution second [smallCoefficient] →
      first (.named "y") = second (.named "y") → first (.named "x") = second (.named "x")) ∧
    ∀ assignment, IsSolution assignment [smallCoefficient] → assignment (.named "y") = 0 →
      assignment (.named "x") = 3 := by
  have positive : 0 < ({} : Settings).cutoff := by decide +kernel
  obtain ⟨solved, _⟩ := solved_of_equal_losses positive (by decide) smallCoefficient_accepted
  obtain ⟨alike, number⟩ := solved "x" (.ofRat 3) (by rw [smallCoefficient_solved]; simp)
  constructor
  · intro first second one other same
    have agrees := (start_agrees_iff {} false none none).mpr one.1
    have factors : fresh.state.FactorsStand {} first smallCoefficient fresh.state.created :=
      agrees.factorsStand_equation positive (start_isExact {} false none none) (by decide)
    have loses : fresh.state.LosesAlike {} first second smallCoefficient := by
      rw [LosesAlike, smallCoefficient_simplifications]
      simp [dropped_smallDifference, dropped_three, same]
    exact alike first second one other ⟨loses, trivial⟩ ⟨factors, trivial⟩
  · intro assignment solution zero
    have loses : fresh.state.LosesNothing {} assignment smallCoefficient := by
      rw [LosesNothing, smallCoefficient_simplifications]
      simp [dropped_smallDifference, dropped_three, zero]
    simpa using number assignment solution ⟨loses, trivial⟩

end Solver
end EquationText
