import EquationText.Proofs.Form.Value
import EquationText.Proofs.Solver.Evaluation

/-! # Equations as statements of arithmetic

An arithmetic expression has a value in ordinary arithmetic at an assignment of complex numbers to the
unknowns, unless it divides by zero (`EquationText.Expr.value?`). The unnamed unknowns of a list of
equations are numbered through, from left to right; what values an equation allows does not depend on
where its numbers start (`EquationText.Expr.holds_congr`).
-/

namespace EquationText

/-- The result of an operation of arithmetic; none for a division by zero. -/
noncomputable def Operator.value? (operator : Operator) (a b : ℂ) : Option ℂ :=
  match operator with
  | .sum => some (a + b)
  | .difference => some (a - b)
  | .product => some (a * b)
  | .quotient => if b = 0 then none else some (a / b)
  | .exponentiation | .equation | .negation | .application | .mediation => none

/-- Whether an operator is one of the four operations of arithmetic. -/
def Operator.isArithmetic : Operator → Bool
  | .sum | .difference | .product | .quotient => true
  | .exponentiation | .equation | .negation | .application | .mediation => false

namespace Expr

/-- Whether an expression is built from numbers and unknowns by arithmetic and mediation. -/
def isArithmetic : Expr → Bool
  | named _ | anonymous | number _ => true
  | negation operand => operand.isArithmetic
  | application _ _ => false
  | mediation condition consequent alternative =>
    condition.isArithmetic && consequent.isArithmetic && alternative.isArithmetic
  | binary operator left right =>
    operator.isArithmetic && left.isArithmetic && right.isArithmetic

/-- Whether an expression is an equation between two arithmetic expressions. -/
def isArithmeticEquation : Expr → Bool
  | binary .equation left right => left.isArithmetic && right.isArithmetic
  | _ => false

/-- The value of an expression at an assignment, where its unnamed unknowns are numbered from `serial`
on; a mediation `t[a, b]` is the point `a + t * (b - a)`. -/
noncomputable def value? (assignment : Assignment) (serial : Nat) : Expr → Option ℂ
  | named name => some (assignment (.named name))
  | anonymous => some (assignment (.anonymous serial))
  | number d => d.shortestValue?.map fun q : ℚ => (q : ℂ)
  | negation operand => (operand.value? assignment serial).map fun a => -a
  | application _ _ => none
  | mediation condition consequent alternative => do
    let t ← condition.value? assignment serial
    let a ← consequent.value? assignment (serial + condition.anonymousCount)
    let b ← alternative.value? assignment
      (serial + condition.anonymousCount + consequent.anonymousCount)
    return a + t * (b - a)
  | binary operator left right => do
    let a ← left.value? assignment serial
    let b ← right.value? assignment (serial + left.anonymousCount)
    operator.value? a b

section Operands

variable {assignment : Assignment} {serial : Nat} {z : ℂ}

/-- A mediation has a value where its operands do. -/
theorem value?_mediation_eq_some {condition consequent alternative : Expr}
    (value : (mediation condition consequent alternative).value? assignment serial = some z) :
    ∃ t a b, condition.value? assignment serial = some t ∧
      consequent.value? assignment (serial + condition.anonymousCount) = some a ∧
      alternative.value? assignment (serial + condition.anonymousCount + consequent.anonymousCount) = some b ∧
      a + t * (b - a) = z := by
  obtain ⟨t, first, value⟩ := Option.bind_eq_some_iff.mp value
  obtain ⟨a, second, value⟩ := Option.bind_eq_some_iff.mp value
  obtain ⟨b, third, value⟩ := Option.bind_eq_some_iff.mp value
  exact ⟨t, a, b, first, second, third, Option.some.inj value⟩

/-- An operation has a value where its operands do and it is defined. -/
theorem value?_binary_eq_some {operator : Operator} {left right : Expr}
    (value : (binary operator left right).value? assignment serial = some z) :
    ∃ a b, left.value? assignment serial = some a ∧
      right.value? assignment (serial + left.anonymousCount) = some b ∧ operator.value? a b = some z := by
  obtain ⟨a, first, value⟩ := Option.bind_eq_some_iff.mp value
  obtain ⟨b, second, value⟩ := Option.bind_eq_some_iff.mp value
  exact ⟨a, b, first, second, value⟩

end Operands

/-- Whether an assignment satisfies an equation: its two sides have the same value. -/
def Holds (assignment : Assignment) (serial : Nat) : Expr → Prop
  | binary .equation left right => ∃ z, left.value? assignment serial = some z ∧
      right.value? assignment (serial + left.anonymousCount) = some z
  | _ => False

/-- Whether an assignment satisfies some equations, whose unnamed unknowns are numbered from `serial`
on. -/
def HoldAll (assignment : Assignment) : Nat → List Expr → Prop
  | _, [] => True
  | serial, equation :: rest =>
    equation.Holds assignment serial ∧
      HoldAll assignment (serial + equation.anonymousCount) rest

/-- The number of unnamed unknowns in some equations. -/
def totalCount (equations : List Expr) : Nat := (equations.map anonymousCount).sum

@[simp]
theorem totalCount_cons (equation : Expr) (rest : List Expr) :
    totalCount (equation :: rest) = equation.anonymousCount + totalCount rest := by
  simp [totalCount]

theorem holdAll_append (assignment : Assignment) (serial : Nat) (first second : List Expr) :
    HoldAll assignment serial (first ++ second) ↔
      HoldAll assignment serial first ∧
        HoldAll assignment (serial + totalCount first) second := by
  induction first generalizing serial with
  | nil => simp [HoldAll, totalCount]
  | cons equation rest ih =>
      rw [List.cons_append, HoldAll, HoldAll, ih, and_assoc, totalCount_cons, Nat.add_assoc]

section Congruence

variable {first second : Assignment} {start other : Nat}
  (names : ∀ name, first (.named name) = second (.named name))
include names

/-- The value of an expression depends on what its names and its unnamed unknowns stand for, in order,
and not on the numbers of these. -/
theorem value?_congr {expr : Expr}
    (anonymous : ∀ index < expr.anonymousCount,
      first (.anonymous (start + index)) = second (.anonymous (other + index))) :
    expr.value? first start = expr.value? second other := by
  induction expr generalizing start other with
  | named name => exact congrArg some (names name)
  | anonymous => exact congrArg some (anonymous 0 Nat.one_pos)
  | number d => rfl
  | negation operand ih => rw [value?, value?, ih anonymous]
  | application callee argument _ _ => rfl
  | mediation condition consequent alternative one two three =>
      simp only [anonymousCount] at anonymous
      have conditionSame := one fun index low => anonymous index (by omega)
      have consequentSame : consequent.value? first (start + condition.anonymousCount) =
          consequent.value? second (other + condition.anonymousCount) := by
        refine two fun index low => ?_
        rw [Nat.add_assoc, Nat.add_assoc]
        exact anonymous _ (by omega)
      have alternativeSame : alternative.value? first
            (start + condition.anonymousCount + consequent.anonymousCount) =
          alternative.value? second
            (other + condition.anonymousCount + consequent.anonymousCount) := by
        refine three fun index low => ?_
        simp only [Nat.add_assoc]
        exact anonymous _ (by omega)
      rw [value?, value?, conditionSame, consequentSame, alternativeSame]
  | binary operator left right one two =>
      simp only [anonymousCount] at anonymous
      have leftSame := one fun index low => anonymous index (by omega)
      have rightSame : right.value? first (start + left.anonymousCount) =
          right.value? second (other + left.anonymousCount) := by
        refine two fun index low => ?_
        rw [Nat.add_assoc, Nat.add_assoc]
        exact anonymous _ (by omega)
      rw [value?, value?, leftSame, rightSame]

/-- Whether an equation holds depends only on the values of its names and of its own unnamed unknowns. -/
theorem holds_congr {equation : Expr}
    (anonymous : ∀ index < equation.anonymousCount,
      first (.anonymous (start + index)) = second (.anonymous (other + index))) :
    equation.Holds first start ↔ equation.Holds second other := by
  unfold Holds
  split
  · rename_i left right
    simp only [anonymousCount] at anonymous
    have leftSame : left.value? first start = left.value? second other :=
      value?_congr names fun index low => anonymous index (by omega)
    have rightSame : right.value? first (start + left.anonymousCount) =
        right.value? second (other + left.anonymousCount) := by
      refine value?_congr names fun index low => ?_
      rw [Nat.add_assoc, Nat.add_assoc]
      exact anonymous _ (by omega)
    rw [leftSame, rightSame]
  · exact Iff.rfl

theorem holdAll_congr {equations : List Expr}
    (anonymous : ∀ index < totalCount equations,
      first (.anonymous (start + index)) = second (.anonymous (other + index))) :
    HoldAll first start equations ↔ HoldAll second other equations := by
  induction equations generalizing start other with
  | nil => exact Iff.rfl
  | cons equation rest ih =>
      rw [totalCount_cons] at anonymous
      refine and_congr (holds_congr names fun index low => anonymous index (by omega)) ?_
      refine ih fun index low => ?_
      rw [Nat.add_assoc, Nat.add_assoc]
      exact anonymous _ (by omega)

end Congruence

/-- The assignment that gives the names and the unnamed unknowns their numbers. -/
def assign (named : String → ℂ) (anonymous : Nat → ℂ) : Assignment
  | .named name => named name
  | .anonymous serial => anonymous serial

/-- Some equations can be satisfied together, with given values of the names, exactly when each of
them can be by itself. -/
theorem exists_holdAll_iff (named : String → ℂ) (serial : Nat) (equations : List Expr) :
    (∃ assignment : Assignment, (∀ name, assignment (.named name) = named name) ∧
        HoldAll assignment serial equations) ↔
      ∀ equation ∈ equations, ∃ assignment : Assignment,
        (∀ name, assignment (.named name) = named name) ∧ equation.Holds assignment 0 := by
  induction equations generalizing serial with
  | nil =>
      refine iff_of_true ⟨assign named 0, fun name => rfl, trivial⟩ ?_
      intro equation member
      cases member
  | cons equation rest ih =>
      rw [List.forall_mem_cons, ← ih (serial + equation.anonymousCount)]
      constructor
      · rintro ⟨assignment, names, here, later⟩
        refine ⟨⟨assign named fun index => assignment (.anonymous (serial + index)),
          fun name => rfl, ?_⟩, assignment, names, later⟩
        refine (holds_congr (fun name => (names name).symm) fun index _ => ?_).mpr here
        rw [Nat.zero_add]
        rfl
      · rintro ⟨⟨first, firstNames, here⟩, second, secondNames, later⟩
        -- The unnamed unknowns of the first equation keep their values from `first`.
        refine ⟨assign named fun index =>
          if index < serial + equation.anonymousCount then first (.anonymous (index - serial))
          else second (.anonymous index), fun name => rfl, ?_, ?_⟩
        · refine (holds_congr (fun name => (firstNames name).symm) fun index low => ?_).mpr here
          simp only [assign, Nat.add_lt_add_left low, ↓reduceIte, Nat.add_sub_cancel_left,
            Nat.zero_add]
        · refine (holdAll_congr (fun name => (secondNames name).symm) fun index _ => ?_).mpr later
          simp only [assign, Nat.not_lt.mpr (Nat.le_add_right _ index), ↓reduceIte]

end Expr

end EquationText
