import EquationText.Proofs.Solver.Solutions

/-! # What stops an evaluation

The nodes of an expression are evaluated one after another, operands first and from left to right. While
every number stays within the range of doubles, evaluation stops at the first node that has an obstacle,
with that obstacle as its cause (`EquationText.Solver.cause?_evaluate`): a product of two forms that both
mention unknowns, a divisor that mentions an unknown, counts as zero, or has a modulus beyond the range, or a
mediation that has to multiply by a compound term of a known form.
-/

namespace EquationText

/-- The cause with which a computation stops. -/
def cause? {α : Type} : Except Cause α → Option Cause
  | .ok _ => none
  | .error cause => some cause

@[simp]
theorem cause?_ok {α : Type} (a : α) : cause? (.ok a : Except Cause α) = none := rfl

@[simp]
theorem cause?_error {α : Type} (cause : Cause) :
    cause? (.error cause : Except Cause α) = some cause := rfl

@[simp]
theorem cause?_exceptMap {α β : Type} (f : α → β) (result : Except Cause α) :
    cause? (result.map f) = cause? result := by
  cases result with
  | ok a => rfl
  | error cause => rfl

theorem cause?_eq_some_iff {α : Type} {result : Except Cause α} {cause : Cause} :
    cause? result = some cause ↔ result = .error cause := by
  cases result with
  | ok a => simp
  | error found => simp

namespace Expr

/-- The nodes of an expression in the order of evaluation, each with the number of its first unnamed
unknown, where those of the expression are numbered from `serial` on. -/
def visits (serial : Nat) : Expr → List (Expr × Nat)
  | named name => [(named name, serial)]
  | anonymous => [(anonymous, serial)]
  | number d => [(number d, serial)]
  | negation operand => operand.visits serial ++ [(negation operand, serial)]
  | application callee argument =>
    callee.visits serial ++ argument.visits (serial + callee.anonymousCount) ++
      [(application callee argument, serial)]
  | mediation condition consequent alternative =>
    condition.visits serial ++ consequent.visits (serial + condition.anonymousCount) ++
      alternative.visits (serial + condition.anonymousCount + consequent.anonymousCount) ++
      [(mediation condition consequent alternative, serial)]
  | binary operator left right =>
    left.visits serial ++ right.visits (serial + left.anonymousCount) ++
      [(binary operator left right, serial)]

end Expr

@[simp]
theorem cause?_lift {α : Type} (computation : Except Cause α) (serial : Nat) :
    cause? ((liftM computation : Evaluation α).run serial) = cause? computation := by
  cases computation with
  | ok a => rfl
  | error cause => rfl

theorem cause?_map {α β : Type} (f : α → β) (computation : Evaluation α) (serial : Nat) :
    cause? ((f <$> computation).run serial) = cause? (computation.run serial) := by
  rw [StateT.run_map]
  rcases computation.run serial with cause | ⟨a, finish⟩
  · rfl
  · rfl

/-- A computation of two parts stops where the first part does, or else where the second does. -/
theorem cause?_bind {α β : Type} {first : Evaluation α} {next : α → Evaluation β} {serial : Nat}
    {earlier later : Option Cause} (before : cause? (first.run serial) = earlier)
    (after : ∀ a middle, first.run serial = .ok (a, middle) → cause? ((next a).run middle) = later) :
    cause? ((first >>= next).run serial) = earlier.or later := by
  rw [StateT.run_bind, ← before]
  rcases run : first.run serial with cause | ⟨a, middle⟩
  · rfl
  · exact after a middle run

theorem Value.IsExact.exists_form {value : Value} (exact : value.IsExact) :
    ∃ form, value = .form form := by
  cases value with
  | form form => exact ⟨form, rfl⟩
  | infinite => cases exact

theorem Form.compounds_neg (f : Form) (negated : Bool) :
    f.neg.compounds (!negated) = (f.compounds negated).map .neg := by
  simp [Form.compounds, Form.neg, List.filter_map, List.map_map, Function.comp_def, Number.neg, Compound.neg]

@[simp]
theorem Operand.compounds_ofValue (value : Value) : (Operand.ofValue value).compounds = [] := by
  cases value with
  | form f => rfl
  | infinite => rfl

theorem Operand.compounds_neg (a : Operand) : a.neg.compounds = a.compounds.map .neg := by
  obtain ⟨value, arrangement⟩ := a
  cases value with
  | infinite => rfl
  | form f =>
      cases arrangement with
      | expanded => rfl
      | factored negated => exact f.compounds_neg negated

namespace Solver

variable {settings : Settings} {solver : Solver} {serial finish : Nat} {value : Value} {f g h : Form}

/-! ## Obstacles -/

/-- The compound terms of an expression: those of a known form, where the expression is a name, perhaps behind signs.
Everything else is multiplied out. -/
def compounds (solver : Solver) : Expr → List Compound
  | .named name => (solver.formOf (.named name)).compounds false
  | .negation operand => (solver.compounds operand).map .neg
  | _ => []

section Definitions

variable (settings : Settings) (solver : Solver)

/-- The form of an expression whose unnamed unknowns are numbered from `serial` on. -/
def form? (expr : Expr) (serial : Nat) : Option Form :=
  match (solver.evaluate settings expr).run serial with
  | .ok (.form form, _) => some form
  | _ => none

/-- The forms that a node multiplies; the mediation `t[a, b]` multiplies `t` and `b - a`. -/
def factors? : Expr × Nat → Option (Form × Form)
  | (.binary .product left right, serial) => do
    let f ← solver.form? settings left serial
    let g ← solver.form? settings right (serial + left.anonymousCount)
    return (f, g)
  | (.mediation condition consequent alternative, serial) => do
    let t ← solver.form? settings condition serial
    let a ← solver.form? settings consequent (serial + condition.anonymousCount)
    let b ← solver.form? settings alternative
      (serial + condition.anonymousCount + consequent.anonymousCount)
    return (t, b.sub a)
  | _ => none

/-- The form that a node divides by. -/
def divisor? : Expr × Nat → Option Form
  | (.binary .quotient left right, serial) =>
    solver.form? settings right (serial + left.anonymousCount)
  | _ => none

/-- Why a node has no form by the rules of arithmetic with linear forms. -/
def refusal? (visit : Expr × Nat) : Option Cause :=
  match solver.factors? settings visit with
  | some (f, g) =>
    if !f.isConstant && !g.isConstant then some (.solving .productOfUnknowns) else none
  | none =>
    match solver.divisor? settings visit with
    | some g =>
      if !g.isConstant then some (.solving .unknownDivisor)
      else if g.constant.isNegligible settings.cutoff then some (.solving .divisionByZero)
      else none
    | none => none

/-- Whether a node divides by a constant with parts in range and a modulus beyond it. -/
def dividesByLarge (visit : Expr × Nat) : Bool :=
  (solver.divisor? settings visit).any fun g => g.isConstant && g.constant.modulusOverflows

/-- Whether a node is a mediation `t[a, b]` with a `t` that mentions an unknown and with different compound terms in
`a` and `b`. These terms stay in the difference of `b` and `a`, also where its form mentions no unknown. -/
def mediatesCompounds : Expr × Nat → Bool
  | (.mediation condition consequent alternative, serial) =>
    (solver.form? settings condition serial).any fun t =>
      !t.isConstant && solver.compounds consequent ≠ solver.compounds alternative
  | _ => false

/-- What stops the evaluation at a node whose value is in range. -/
def obstacle? (visit : Expr × Nat) : Option Cause :=
  if solver.dividesByLarge settings visit then some .modulusRange
  else if solver.mediatesCompounds settings visit then some (.solving .productOfUnknowns)
  else solver.refusal? settings visit

/-- Whether the value of a node, found without any check, has a number beyond the range of doubles, or is
made of a literal beyond it. -/
def exceedsRange (visit : Expr × Nat) : Bool :=
  match (visit.1.reduce (solver.combine settings)).run visit.2 with
  | .ok (⟨.form form, _⟩, _) => !form.isFinite
  | .ok (⟨.infinite, _⟩, _) => false
  | .error cause => cause = .solving .numberRange

end Definitions

/-! ## Compound terms -/

/-- What is computed has no compound terms. -/
theorem compounds_of_lift {computation : Except Cause Value} {operand : Operand}
    (ok : (liftM (computation.map Operand.ofValue) : Evaluation Operand).run serial = .ok (operand, finish)) :
    operand.compounds = [] := by
  rw [(combine_eq_ok_of_lift ok).2.1, Operand.compounds_ofValue]

/-- An operand has the compound terms of the expression it is found for. -/
theorem compounds_of_reduce {expr : Expr} {operand : Operand}
    (ok : (expr.reduce (solver.combineInRange settings)).run serial = .ok (operand, finish)) :
    operand.compounds = solver.compounds expr := by
  induction expr generalizing operand serial finish with
  | named name =>
      cases combineInRange_eq_ok ok
      rfl
  | anonymous =>
      cases combineInRange_eq_ok ok
      rfl
  | number d =>
      exact compounds_of_lift (combineInRange_eq_ok ok)
  | negation inner ih =>
      obtain ⟨a, middle, first, combined⟩ := Evaluation.run_bind_eq_ok ok
      cases combineInRange_eq_ok combined
      rw [Operand.compounds_neg, ih first, compounds]
  | application callee argument =>
      obtain ⟨f, middle, _, ok⟩ := Evaluation.run_bind_eq_ok ok
      obtain ⟨a, later, _, combined⟩ := Evaluation.run_bind_eq_ok ok
      have applied := combineInRange_eq_ok combined
      cases callee with
      | named name =>
          exact compounds_of_lift applied
      | _ => cases applied
  | mediation condition consequent alternative =>
      obtain ⟨t, first, _, ok⟩ := Evaluation.run_bind_eq_ok ok
      obtain ⟨a, second, _, ok⟩ := Evaluation.run_bind_eq_ok ok
      obtain ⟨b, third, _, combined⟩ := Evaluation.run_bind_eq_ok ok
      exact compounds_of_lift (combineInRange_eq_ok combined)
  | binary operator left right =>
      obtain ⟨a, middle, _, ok⟩ := Evaluation.run_bind_eq_ok ok
      obtain ⟨b, later, _, combined⟩ := Evaluation.run_bind_eq_ok ok
      exact compounds_of_lift (combineInRange_eq_ok combined)

/-! ## The obstacles of single nodes -/

theorem form?_of_reduce {expr : Expr} {operand : Operand}
    (ok : (expr.reduce (solver.combineInRange settings)).run serial = .ok (operand, finish))
    (same : operand.value = .form f) : solver.form? settings expr serial = some f := by
  rw [form?, run_evaluate_of_reduce expr ok, same]

theorem cause?_mul (f g : Form) :
    cause? ((Value.form f).mul (.form g)) =
      if !f.isConstant && !g.isConstant then some (.solving .productOfUnknowns) else none := by
  rw [Value.mul]
  by_cases left : f.isConstant = true
  · simp [left]
  · by_cases right : g.isConstant = true
    · simp [left, right]
    · simp [left, right]

/-- With a tolerance a quotient of forms stops only because of its divisor. -/
theorem cause?_div {cutoff : Rat} (positive : 0 < cutoff) (f g : Form) :
    cause? ((Value.form f).div cutoff (.form g)) =
      if !g.isConstant then some (.solving .unknownDivisor)
      else if g.constant.modulusOverflows then some .modulusRange
      else if g.constant.isNegligible cutoff then some (.solving .divisionByZero)
      else none := by
  rw [Value.div]
  by_cases constant : g.isConstant = true
  · by_cases beyond : g.constant.modulusOverflows = true
    · simp [constant, beyond]
    · by_cases negligible : g.constant.isNegligible cutoff = true
      · simp [constant, beyond, negligible]
      · have nonzero : ¬ g.constant.isZero = true := fun zero =>
          negligible (Number.isNegligible_of_toComplex_eq_zero positive
            ((Number.isZero_iff _).mp zero))
        simp [constant, beyond, negligible, nonzero]
  · simp [constant]

section Mediation

variable {t a b : Operand} (one : t.value = .form f) (two : a.value = .form g) (three : b.value = .form h)
include one two three

/-- A mediation of forms stops because of compound terms, or as the product of one form and the way between the two
others does. -/
theorem cause?_mediate :
    cause? (mediate t a b) =
      if !f.isConstant && a.compounds ≠ b.compounds then some (.solving .productOfUnknowns)
      else cause? ((Value.form f).mul (.form (h.sub g))) := by
  have way : b.value.sub a.value = .ok (.form (h.sub g)) := by rw [two, three]; rfl
  rw [mediate, way, except_ok_bind, scaleWay, one, two, Value.isConstant]
  split
  · rfl
  · rw [Value.mul]
    split
    · rfl
    · split
      · rfl
      · rfl

/-- A mediation stops at its own node exactly when it multiplies two forms that mention unknowns, or has to multiply
by compound terms. -/
theorem obstacle?_mediation {condition consequent alternative : Expr}
    (first : solver.form? settings condition serial = some f)
    (second : solver.form? settings consequent (serial + condition.anonymousCount) = some g)
    (third : solver.form? settings alternative
      (serial + condition.anonymousCount + consequent.anonymousCount) = some h)
    (sameFirst : a.compounds = solver.compounds consequent)
    (sameSecond : b.compounds = solver.compounds alternative) :
    solver.obstacle? settings (.mediation condition consequent alternative, serial) = cause? (mediate t a b) := by
  rw [cause?_mediate one two three, cause?_mul, sameFirst, sameSecond]
  simp only [obstacle?, dividesByLarge, divisor?, mediatesCompounds, refusal?, factors?, first, second, third]
  rfl

end Mediation

/-- An operation of arithmetic stops at its own node exactly when that has an obstacle. -/
theorem obstacle?_binary (positive : 0 < settings.cutoff) {operator : Operator} {left right : Expr}
    (arithmetic : operator.isArithmetic = true)
    (first : solver.form? settings left serial = some f)
    (second : solver.form? settings right (serial + left.anonymousCount) = some g) :
    solver.obstacle? settings (.binary operator left right, serial) =
      cause? (operate settings.cutoff operator (.form f) (.form g)) := by
  cases operator with
  | sum => rfl
  | difference => rfl
  | product =>
      rw [operate, cause?_mul]
      simp [obstacle?, dividesByLarge, divisor?, mediatesCompounds, refusal?, factors?, first, second]
  | quotient =>
      rw [operate, cause?_div positive]
      simp only [obstacle?, dividesByLarge, divisor?, mediatesCompounds, refusal?, factors?, second, Option.any_some]
      by_cases constant : g.isConstant = true
      · simp [constant]
      · simp [constant]
  | exponentiation | equation | negation | application | mediation => cases arithmetic

/-! ## The whole expression -/

/-- A reduction that passes every check of range is the one without these checks. -/
theorem reduce_combine_of_reduce {expr : Expr} {operand : Operand}
    (ok : (expr.reduce (solver.combineInRange settings)).run serial = .ok (operand, finish)) :
    (expr.reduce (solver.combine settings)).run serial = .ok (operand, finish) := by
  induction expr generalizing operand serial finish with
  | named name => exact combineInRange_eq_ok ok
  | anonymous => exact combineInRange_eq_ok ok
  | number d => exact combineInRange_eq_ok ok
  | negation inner ih =>
      obtain ⟨a, middle, first, combined⟩ := Evaluation.run_bind_eq_ok ok
      rw [Expr.reduce, StateT.run_bind, ih first]
      exact combineInRange_eq_ok combined
  | application callee argument one two =>
      obtain ⟨a, middle, first, ok⟩ := Evaluation.run_bind_eq_ok ok
      obtain ⟨b, later, second, combined⟩ := Evaluation.run_bind_eq_ok ok
      rw [Expr.reduce, StateT.run_bind, one first, except_ok_bind, StateT.run_bind, two second]
      exact combineInRange_eq_ok combined
  | mediation condition consequent alternative one two three =>
      obtain ⟨a, middle, first, ok⟩ := Evaluation.run_bind_eq_ok ok
      obtain ⟨b, later, second, ok⟩ := Evaluation.run_bind_eq_ok ok
      obtain ⟨c, last, third, combined⟩ := Evaluation.run_bind_eq_ok ok
      rw [Expr.reduce, StateT.run_bind, one first, except_ok_bind, StateT.run_bind, two second,
        except_ok_bind, StateT.run_bind, three third]
      exact combineInRange_eq_ok combined
  | binary operator left right one two =>
      obtain ⟨a, middle, first, ok⟩ := Evaluation.run_bind_eq_ok ok
      obtain ⟨b, later, second, combined⟩ := Evaluation.run_bind_eq_ok ok
      rw [Expr.reduce, StateT.run_bind, one first, except_ok_bind, StateT.run_bind, two second]
      exact combineInRange_eq_ok combined

/-- A node whose value is in range stops only where the combination of its operands does. -/
theorem cause?_combineInRange {node : Expr} {operands : List Operand} {middle : Nat}
    (inRange : solver.exceedsRange settings (node, serial) = false)
    (unchecked : (node.reduce (solver.combine settings)).run serial =
      (solver.combine settings node operands).run middle) :
    cause? ((solver.combineInRange settings node operands).run middle) =
      cause? ((solver.combine settings node operands).run middle) := by
  rw [exceedsRange, unchecked] at inRange
  rw [combineInRange, StateT.run_bind]
  rcases combined : (solver.combine settings node operands).run middle with cause | ⟨⟨found, arrangement⟩, later⟩
  · rfl
  · rw [combined] at inRange
    cases found with
    | infinite => rfl
    | form form =>
        have finite : form.isFinite = true := by simpa using inRange
        simp only [except_ok_bind, Value.checkRange, finite, ↓reduceIte]
        rfl

/-- An expression that has an operand has a form, found from `serial` on. -/
theorem exists_form_of_reduce (positive : 0 < settings.cutoff) (exact : solver.IsExact) {expr : Expr}
    (arithmetic : expr.isArithmetic = true) {operand : Operand}
    (ok : (expr.reduce (solver.combineInRange settings)).run serial = .ok (operand, finish)) :
    ∃ form, operand.value = .form form ∧ solver.form? settings expr serial = some form := by
  obtain ⟨form, same⟩ := (evaluate_exact positive exact arithmetic (run_evaluate_of_reduce _ ok)).1.exists_form
  exact ⟨form, same, form?_of_reduce ok same⟩

section Nodes

variable (positive : 0 < settings.cutoff) (exact : solver.IsExact)
include positive exact

/-- A mediation in range stops with its obstacle once its parts have operands. -/
theorem cause?_mediation {condition consequent alternative : Expr} {t a b : Operand} {middle later last : Nat}
    (arithmetic : (Expr.mediation condition consequent alternative).isArithmetic = true)
    (inRange : solver.exceedsRange settings (.mediation condition consequent alternative, serial) = false)
    (conditionRun : (condition.reduce (solver.combineInRange settings)).run serial = .ok (t, middle))
    (consequentRun : (consequent.reduce (solver.combineInRange settings)).run middle = .ok (a, later))
    (alternativeRun : (alternative.reduce (solver.combineInRange settings)).run later = .ok (b, last)) :
    cause? ((solver.combineInRange settings (.mediation condition consequent alternative) [t, a, b]).run last) =
      solver.obstacle? settings (.mediation condition consequent alternative, serial) := by
  simp only [Expr.isArithmetic, Bool.and_eq_true] at arithmetic
  obtain ⟨f, tForm, conditionForm⟩ := exists_form_of_reduce positive exact arithmetic.1.1 conditionRun
  obtain ⟨g, aForm, consequentForm⟩ := exists_form_of_reduce positive exact arithmetic.1.2 consequentRun
  obtain ⟨h, bForm, alternativeForm⟩ := exists_form_of_reduce positive exact arithmetic.2 alternativeRun
  rw [evaluate_created (run_evaluate_of_reduce _ consequentRun),
    evaluate_created (run_evaluate_of_reduce _ conditionRun)] at alternativeForm
  rw [evaluate_created (run_evaluate_of_reduce _ conditionRun)] at consequentForm
  rw [cause?_combineInRange inRange]
  · refine (cause?_lift ((mediate t a b).map Operand.ofValue) last).trans ?_
    rw [cause?_exceptMap, obstacle?_mediation tForm aForm bForm conditionForm consequentForm alternativeForm
      (compounds_of_reduce consequentRun) (compounds_of_reduce alternativeRun)]
  · rw [Expr.reduce, StateT.run_bind, reduce_combine_of_reduce conditionRun, except_ok_bind, StateT.run_bind,
      reduce_combine_of_reduce consequentRun, except_ok_bind, StateT.run_bind,
      reduce_combine_of_reduce alternativeRun]
    rfl

/-- An operation in range stops with its obstacle once both sides have operands. -/
theorem cause?_binary {operator : Operator} {left right : Expr} {a b : Operand} {middle last : Nat}
    (arithmetic : (Expr.binary operator left right).isArithmetic = true)
    (inRange : solver.exceedsRange settings (.binary operator left right, serial) = false)
    (leftRun : (left.reduce (solver.combineInRange settings)).run serial = .ok (a, middle))
    (rightRun : (right.reduce (solver.combineInRange settings)).run middle = .ok (b, last)) :
    cause? ((solver.combineInRange settings (.binary operator left right) [a, b]).run last) =
      solver.obstacle? settings (.binary operator left right, serial) := by
  simp only [Expr.isArithmetic, Bool.and_eq_true] at arithmetic
  obtain ⟨f, aForm, leftForm⟩ := exists_form_of_reduce positive exact arithmetic.1.2 leftRun
  obtain ⟨g, bForm, rightForm⟩ := exists_form_of_reduce positive exact arithmetic.2 rightRun
  rw [evaluate_created (run_evaluate_of_reduce _ leftRun)] at rightForm
  rw [cause?_combineInRange inRange]
  · refine (cause?_lift ((operate settings.cutoff operator a.value b.value).map Operand.ofValue) last).trans ?_
    rw [cause?_exceptMap, aForm, bForm, obstacle?_binary positive arithmetic.1.1 leftForm rightForm]
  · rw [Expr.reduce, StateT.run_bind, reduce_combine_of_reduce leftRun, except_ok_bind, StateT.run_bind,
      reduce_combine_of_reduce rightRun]
    rfl

/-- While all values are in range, a reduction stops with the obstacle of the first node that has one: by induction on
the expression, as its visits are those of its parts and then its own. -/
theorem cause?_reduce {expr : Expr} (arithmetic : expr.isArithmetic = true)
    (inRange : ∀ visit ∈ expr.visits serial, solver.exceedsRange settings visit = false) :
    cause? ((expr.reduce (solver.combineInRange settings)).run serial) =
      (expr.visits serial).findSome? (solver.obstacle? settings) := by
  induction expr generalizing serial with
  | named name =>
      rw [Expr.reduce, cause?_combineInRange (inRange _ (List.mem_singleton_self _)) rfl]
      rfl
  | anonymous =>
      rw [Expr.reduce, cause?_combineInRange (inRange _ (List.mem_singleton_self _)) rfl]
      rfl
  | number d =>
      have here := inRange _ (List.mem_singleton_self _)
      rw [Expr.reduce, cause?_combineInRange here rfl]
      cases read : d.shortestValue? with
      | some q =>
          simp only [combine, literal, read]
          rfl
      | none =>
          simp only [exceedsRange, Expr.reduce, combine, literal, read] at here
          cases here
  | negation inner ih =>
      obtain ⟨inside, here⟩ := List.forall_mem_append.mp inRange
      rw [Expr.visits, List.findSome?_append]
      refine cause?_bind (ih arithmetic inside) fun a middle run => ?_
      rw [cause?_combineInRange (here _ (List.mem_singleton_self _))]
      · rfl
      · rw [Expr.reduce, StateT.run_bind, reduce_combine_of_reduce run]
        rfl
  | application callee argument _ _ => cases arithmetic
  | mediation condition consequent alternative one two three =>
      have parts := arithmetic
      simp only [Expr.isArithmetic, Bool.and_eq_true] at parts
      obtain ⟨operands, here⟩ := List.forall_mem_append.mp inRange
      obtain ⟨sides, third⟩ := List.forall_mem_append.mp operands
      obtain ⟨first, second⟩ := List.forall_mem_append.mp sides
      rw [Expr.visits, List.findSome?_append, List.findSome?_append, List.findSome?_append, Option.or_assoc,
        Option.or_assoc, List.findSome?_singleton]
      refine cause?_bind (one parts.1.1 first) fun t middle conditionRun => ?_
      obtain rfl := evaluate_created (run_evaluate_of_reduce _ conditionRun)
      refine cause?_bind (two parts.1.2 second) fun a later consequentRun => ?_
      obtain rfl := evaluate_created (run_evaluate_of_reduce _ consequentRun)
      refine cause?_bind (three parts.2 third) fun b last alternativeRun => ?_
      exact cause?_mediation positive exact arithmetic (here _ (List.mem_singleton_self _)) conditionRun
        consequentRun alternativeRun
  | binary operator left right one two =>
      have parts := arithmetic
      simp only [Expr.isArithmetic, Bool.and_eq_true] at parts
      obtain ⟨operands, here⟩ := List.forall_mem_append.mp inRange
      obtain ⟨first, second⟩ := List.forall_mem_append.mp operands
      rw [Expr.visits, List.findSome?_append, List.findSome?_append, Option.or_assoc, List.findSome?_singleton]
      refine cause?_bind (one parts.1.2 first) fun a middle leftRun => ?_
      obtain rfl := evaluate_created (run_evaluate_of_reduce _ leftRun)
      refine cause?_bind (two parts.2 second) fun b last rightRun => ?_
      exact cause?_binary positive exact arithmetic (here _ (List.mem_singleton_self _)) leftRun rightRun

/-- While all values are in range, evaluation stops with the obstacle of the first node that has one. -/
theorem cause?_evaluate {expr : Expr} (arithmetic : expr.isArithmetic = true)
    (inRange : ∀ visit ∈ expr.visits serial, solver.exceedsRange settings visit = false) :
    cause? ((solver.evaluate settings expr).run serial) =
      (expr.visits serial).findSome? (solver.obstacle? settings) := by
  rw [evaluate_eq_reduce, cause?_map, cause?_reduce positive exact arithmetic inRange]

end Nodes

end Solver

end EquationText
