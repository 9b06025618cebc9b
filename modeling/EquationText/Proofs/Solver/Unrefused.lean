import EquationText.Proofs.Solver.Obstacles

/-! # Evaluation in a run without refusals

In a run in which nothing was refused the form of an expression is in the unknowns that are not eliminated,
and has the ordinary value of the expression wherever the eliminated ones have theirs; and an evaluation stops
exactly at an obstacle (`EquationText.Solver.evaluation_of_unrefused`). Two of the obstacles are none by the rules of
arithmetic with linear forms (`EquationText.Solver.evaluation_stops_unrefused`).
-/

namespace EquationText

namespace Solver

variable {settings : Settings} {solver : Solver}

/-- A solver that equations, commands and evaluations have led to, none of which was refused. -/
inductive Unrefused (settings : Settings) : Solver → Prop
  | start (verbose : Bool) (maxDepth precision : Option Int) :
    Unrefused settings (start settings verbose maxDepth precision)
  | solve {before after : Traced Solver} {equation : Expr} {bindings : List Binding}
    (unrefused : Unrefused settings before.state)
    (ok : solve settings equation before = (.ok bindings, after)) : Unrefused settings after.state
  | command {before after : Traced Solver} {name payload : String}
    (unrefused : Unrefused settings before.state)
    (ok : command settings name payload before = (.ok (), after)) : Unrefused settings after.state
  | evaluate {solver : Solver} {expr : Expr} {value : Value} {created : Nat}
    (unrefused : Unrefused settings solver)
    (ok : (solver.evaluate settings expr).run solver.created = .ok (value, created)) :
    Unrefused settings { solver with created }

/-- How a solver reports and what it has created beyond its unknowns do not matter. -/
theorem IsReduced.withCreated (reduced : solver.IsReduced) {created : Nat}
    (more : solver.created ≤ created) (verbose : Bool) (precision : Int) :
    { solver with created, verbose, precision }.IsReduced where
  distinct := reduced.distinct
  imaginary := reduced.imaginary
  free := reduced.free
  created serial member := Nat.lt_of_lt_of_le (reduced.created serial member) more
  solved := reduced.solved
  solvedDistinct := reduced.solvedDistinct
  finite := reduced.finite

/-- By induction on the run: equations keep the state reduced, and commands and evaluations leave its forms alone.
-/
theorem Unrefused.isReduced (unrefused : Unrefused settings solver) : solver.IsReduced := by
  induction unrefused with
  | start verbose maxDepth precision => exact start_isReduced settings verbose maxDepth precision
  | solve _ ok ih =>
      obtain ⟨left, right, created, unknown, solution, accepts⟩ := solve_ok ok
      exact ih.accept accepts
  | @command before after name payload _ ok ih =>
      have keeps : Action.Keeps IsReduced (Solver.command settings name payload) :=
        command_keeps
          (fun solver verbose reduced => reduced.withCreated (Nat.le_refl _) verbose solver.precision)
          (fun solver precision _ reduced => reduced.withCreated (Nat.le_refl _) solver.verbose precision)
          name payload
      have kept := keeps before ih
      rwa [ok] at kept
  | @evaluate solver _ _ _ _ ok ih =>
      exact ih.withCreated (evaluate_created ok ▸ Nat.le_add_right _ _) solver.verbose solver.precision

/-- Equations that are accepted one after another keep a run without refusals. -/
theorem Unrefused.solveAll {before after : Traced Solver} {equations : List Expr}
    (unrefused : Unrefused settings before.state)
    (run : solveAll settings equations before = (.ok (), after)) : Unrefused settings after.state := by
  induction equations generalizing before with
  | nil =>
      cases run
      exact unrefused
  | cons equation rest ih =>
      obtain ⟨bindings, middle, first, others⟩ := Action.run_bind_eq_ok run
      exact ih (unrefused.solve first) others

/-- In a run without refusals, with exact forms, the form of an arithmetic expression mentions no
eliminated unknown, and has the value of the expression at every assignment that gives the eliminated
unknowns their values. While all values are in range, evaluation stops exactly when a node of the
expression has an obstacle, and then with the obstacle of the first such node. -/
theorem evaluation_of_unrefused (positive : 0 < settings.cutoff) (unrefused : Unrefused settings solver)
    (exact : solver.IsExact) {expr : Expr} (arithmetic : expr.isArithmetic = true) :
    (∀ value created,
      (solver.evaluate settings expr).run solver.created = .ok (value, created) →
      ∃ form, value = .form form ∧
        (∀ unknown ∈ solver.eliminated, form.mentions unknown = false) ∧
        ∀ assignment, solver.Agrees assignment →
          expr.value? assignment solver.created = some (form.value assignment)) ∧
    ((∀ visit ∈ expr.visits solver.created, solver.exceedsRange settings visit = false) →
      ∀ cause, (solver.evaluate settings expr).run solver.created = .error cause ↔
        (expr.visits solver.created).findSome? (solver.obstacle? settings) = some cause) := by
  constructor
  · intro value created ok
    obtain ⟨valueExact, meaning⟩ := evaluate_exact positive exact arithmetic ok
    obtain ⟨form, rfl⟩ := valueExact.exists_form
    refine ⟨form, rfl, fun unknown eliminated => ?_, meaning⟩
    refine Bool.eq_false_iff.mpr fun mentioned => ?_
    have reaches := mem_unknowns_evaluate ok ((Form.mentions_iff form unknown).mp mentioned)
    exact unrefused.isReduced.not_mem_of_reaches reaches eliminated
  · intro inRange cause
    rw [← cause?_eq_some_iff, cause?_evaluate positive exact arithmetic inRange]

/-- The expression `(x - y) * z`. -/
def scaledDifference : Expr :=
  .binary .product (.binary .difference (.named "x") (.named "y")) (.named "z")

/-- The expression `(z - z) * w + 1 / (w - w) + w * z`. -/
def threeFactors : Expr :=
  let difference (name : String) : Expr := .binary .difference (.named name) (.named name)
  .binary .sum
    (.binary .sum (.binary .product (difference "z") (.named "w"))
      (.binary .quotient (.number (.ofDecimal 1 0)) (difference "w")))
    (.binary .product (.named "w") (.named "z"))

/-- Where `x` is `6` and `y` is `4`, the form of `(x - y) * z` is `2 * z`, and has the value of the
expression. The evaluation of `(z - z) * w + 1 / (w - w) + w * z` stops at the division by zero: the
product before it has a constant factor, and the one behind it is not reached. -/
theorem evaluation_of_unrefused_sumAndDifference :
    let solver := (solveAll {} sumAndDifference fresh).2.state
    let form := (Form.ofUnknown (.named "z")).scale (.ofRat 2)
    (solver.evaluate {} scaledDifference).run 0 = .ok (.form form, 0) ∧
      (∀ assignment, assignment (.named "i") = Complex.I → assignment (.named "x") = 6 →
        assignment (.named "y") = 4 →
        scaledDifference.value? assignment 0 = some (form.value assignment)) ∧
      (solver.evaluate {} threeFactors).run 0 = .error (.solving .divisionByZero) := by
  intro solver form
  have positive : 0 < ({} : Settings).cutoff := by decide +kernel
  have unrefused : Unrefused {} solver :=
    Unrefused.solveAll (.start false none none) sumAndDifference_accepted.accepted
  have exact : solver.IsExact := (sumAndDifference_accepted.fresh positive).2.1
  have created : solver.created = 0 := by decide +kernel
  have evaluated : (solver.evaluate {} scaledDifference).run 0 = .ok (.form form, 0) := by
    decide +kernel
  refine ⟨evaluated, fun assignment unit first second => ?_, ?_⟩
  · have arithmetic : scaledDifference.isArithmetic = true := by decide
    obtain ⟨evaluation, _⟩ := evaluation_of_unrefused positive unrefused exact arithmetic
    rw [created] at evaluation
    obtain ⟨found, same, _, meaning⟩ := evaluation _ _ evaluated
    cases same
    refine meaning assignment ?_
    rw [Agrees, show solver.known = _ from sumAndDifference_known]
    simp [unit, first, second, Form.ofRat]
  · have arithmetic : threeFactors.isArithmetic = true := by decide
    obtain ⟨_, stops⟩ := evaluation_of_unrefused positive unrefused exact arithmetic
    rw [created] at stops
    exact (stops (by decide +kernel) _).mpr (by decide +kernel)

/-- Whether evaluation of an expression stops with a cause, in a run in which nothing was refused, although all values
are in range and no node is refused by the rules of arithmetic with linear forms. -/
structure StopsUnrefused (solver : Solver) (expr : Expr) (cause : Cause) : Prop where
  unrefused : Unrefused {} solver
  exact : solver.IsExact
  arithmetic : expr.isArithmetic = true
  inRange : ∀ visit ∈ expr.visits solver.created, solver.exceedsRange {} visit = false
  permitted : (expr.visits solver.created).findSome? (solver.refusal? {}) = none
  stops : (solver.evaluate {} expr).run solver.created = .error cause

/-- The expression `1.7e308 / (1.7e308 + 1.7e308 * i)`. -/
def largeDivisor : Expr :=
  let number : Expr := .number (.ofDecimal 17 307)
  .binary .quotient number (.binary .sum number (.binary .product number (.named "i")))

/-- The equation `x = y + i * y`. -/
def complexMultiple : List Expr :=
  [.binary .equation (.named "x")
    (.binary .sum (.named "y") (.binary .product (.named "i") (.named "y")))]

/-- The expression `t[x, x + 1]`. -/
def mediatedStep : Expr :=
  .mediation (.named "t") (.named "x") (.binary .sum (.named "x") (.number (.ofDecimal 1 0)))

theorem complexMultiple_accepted :
    Accepted {} complexMultiple fresh (solveAll {} complexMultiple fresh).2 where
  arithmetic := by decide
  accepted := by
    have ok : (solveAll {} complexMultiple fresh).1 = .ok () := by decide +kernel
    exact Prod.ext ok rfl
  clear := by decide +kernel

/-- Evaluation can stop although no node is refused by the rules of arithmetic with linear forms and all
values are in range: where the modulus of a divisor is beyond the range of doubles, and, after `x = y + i * y`, at
`t[x, x + 1]`, where the way from `x` to `x + 1` has the form `1`. -/
theorem evaluation_stops_unrefused :
    StopsUnrefused fresh.state largeDivisor .modulusRange ∧
      StopsUnrefused (solveAll {} complexMultiple fresh).2.state mediatedStep (.solving .productOfUnknowns) := by
  have positive : 0 < ({} : Settings).cutoff := by decide +kernel
  constructor
  · exact {
      unrefused := .start false none none
      exact := start_isExact {} false none none
      arithmetic := by decide
      inRange := by decide +kernel
      permitted := by decide +kernel
      stops := by decide +kernel }
  · exact {
      unrefused := Unrefused.solveAll (.start false none none) complexMultiple_accepted.accepted
      exact := (complexMultiple_accepted.fresh positive).2.1
      arithmetic := by decide
      inRange := by decide +kernel
      permitted := by decide +kernel
      stops := by decide +kernel }

end Solver

end EquationText
