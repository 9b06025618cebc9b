import EquationText.Grammar.Reading
import EquationText.Proofs.Grammar.Derivation

/-! # The programs of trees

The program of a tree pushes its leaves and applies its operators, operands first and from left to right
(`EquationText.Expr.program`). Carrying it out asks for room on the stack beyond the values that are
there (`EquationText.Expr.room`), and how much that is depends only on how deeply the tree was nested
(`EquationText.Derives.room_le`), not on its size.
-/

namespace EquationText

namespace Expr

/-- The program that builds a tree. -/
def program : Expr → List Instruction
  | named name => [.named name]
  | anonymous => [.anonymous]
  | number value => [.number value]
  | negation operand => operand.program ++ [.apply .negation]
  | application callee argument => callee.program ++ (argument.program ++ [.apply .application])
  | mediation condition consequent alternative =>
    condition.program ++ (consequent.program ++ (alternative.program ++ [.apply .mediation]))
  | binary operator left right => left.program ++ (right.program ++ [.apply operator])

/-- The program that builds some trees, one after another. -/
def programs (trees : List Expr) : List Instruction := trees.flatMap program

theorem programs_append (first second : List Expr) :
    programs (first ++ second) = programs first ++ programs second := List.flatMap_append

@[simp]
theorem programs_singleton (tree : Expr) : programs [tree] = tree.program := by
  simp [programs]

/-- The room that building a tree asks for: a pushed name or number, and an operator whose operands are
on the stack, need one place more than they take. -/
def room : Expr → Nat
  | anonymous => 1
  | named _ | number _ => 2
  | negation operand => max operand.room 2
  | application callee argument => max callee.room (max (argument.room + 1) 3)
  | mediation condition consequent alternative =>
    max condition.room (max (consequent.room + 1) (max (alternative.room + 2) 4))
  | binary _ left right => max left.room (max (right.room + 1) 3)

theorem room_pos (tree : Expr) : 0 < tree.room := by
  cases tree <;> simp only [room] <;> omega

/-- Whether the operators between two operands of a tree are ones that are written so. -/
def isWellFormed : Expr → Bool
  | named _ | anonymous | number _ => true
  | negation operand => operand.isWellFormed
  | application callee argument => callee.isWellFormed && argument.isWellFormed
  | mediation condition consequent alternative =>
    condition.isWellFormed && consequent.isWellFormed && alternative.isWellFormed
  | binary operator left right => operator.isInfixed && left.isWellFormed && right.isWellFormed

/-- An expression, which has no equation in it, is one that a program builds. -/
theorem isWellFormed_of_isExpression {tree : Expr} (expression : tree.isExpression = true) :
    tree.isWellFormed = true := by
  induction tree with
  | named name => rfl
  | anonymous => rfl
  | number value => rfl
  | negation operand ih => exact ih expression
  | application callee argument _ ih =>
      cases callee with
      | named name => exact ih expression
      | _ => cases expression
  | mediation condition consequent alternative one two three =>
      simp only [isExpression, Bool.and_eq_true] at expression
      simp only [isWellFormed, Bool.and_eq_true]
      exact ⟨⟨one expression.1.1, two expression.1.2⟩, three expression.2⟩
  | binary operator left right one two =>
      simp only [isExpression, Bool.and_eq_true] at expression
      simp only [isWellFormed, Bool.and_eq_true]
      exact ⟨⟨expression.1.1.1, one expression.1.2⟩, two expression.2⟩

/-- The operator at the root of a tree. -/
def operator? : Expr → Option Operator
  | named _ | anonymous | number _ => none
  | negation _ => some .negation
  | application _ _ => some .application
  | mediation _ _ _ => some .mediation
  | binary operator _ _ => some operator

end Expr

/-- How far below the limit of its nesting a category stays with the room that its words ask for. -/
def Category.reserve : Category → Nat
  | .expression => 2
  | .term => 3
  | .signed => 4
  | .power | .postfixed | .primary => 0

/-- The room that a word asks for is bounded by its nesting: four places for each level. -/
theorem Derives.room_le {category : Category} {levels : Nat} {word : List Token} {tree : Expr}
    (derives : Derives category levels word tree) :
    tree.room + category.reserve ≤ 4 * levels + 2 := by
  induction derives with
  | ofTerm _ ih | ofSigned _ ih | ofPower _ ih | plus _ ih | ofPostfixed _ ih | ofPrimary _ ih
  | parenthesised _ ih =>
      simp only [Category.reserve] at *
      omega
  | minus _ ih | number | anonymous | named =>
      simp only [Category.reserve, Expr.room] at *
      omega
  | @application levels name line word tree _ _ _ ih =>
      have positive := tree.room_pos
      simp only [Category.reserve, Expr.room] at *
      omega
  | sum _ _ first second | difference _ _ first second | product _ _ first second
  | quotient _ _ first second | power _ _ first second =>
      simp only [Category.reserve, Expr.room] at *
      omega
  | @mediation levels _ _ _ t a b _ _ _ _ _ _ condition consequent alternative =>
      have positive := a.room_pos
      simp only [Category.reserve, Expr.room] at *
      omega

namespace DerivesEquation

variable {levels : Nat} {word : List Token} {tree : Expr}

theorem room_le (derives : DerivesEquation levels word tree) : tree.room ≤ 4 * levels + 1 := by
  obtain @⟨_, _, a, b, _, first, second⟩ := derives
  have left := first.room_le
  have right := second.room_le
  have positive := a.room_pos
  simp only [Category.reserve, Expr.room] at *
  omega

theorem isWellFormed (derives : DerivesEquation levels word tree) : tree.isWellFormed = true := by
  obtain ⟨first, second⟩ := derives
  simp [Expr.isWellFormed, Operator.isInfixed,
    Expr.isWellFormed_of_isExpression first.isExpression,
    Expr.isWellFormed_of_isExpression second.isExpression]

end DerivesEquation

end EquationText
