import EquationText.Expr.Show
import EquationText.Proofs.Expr.Program
import EquationText.Proofs.Expr.Reduction

/-! # What the text of a tree is read as

The text of a tree puts no parentheses around a negation, and a sign binds less than a power or a mediation. So
the text of `(-x)^2` is that of `-(x^2)`: the text of a tree is read as the tree in which the signs in front of
bases and scales are in front of the whole power or mediation (`EquationText.Expr.reread`), which is the tree
itself exactly if no base and no scale has a sign in front (`EquationText.Expr.reread_eq_self_iff`).
-/

namespace EquationText

namespace Expr

/-! ## The text of a tree -/

theorem toText_eq_reduce (tree : Expr) :
    tree.toText = Id.run (reduce (fun node parts => pure (showNode node parts)) tree) := by
  rw [toText, fold_eq_reduce]

@[simp]
theorem toText_named (name : String) : (named name).toText = name := by
  rw [toText_eq_reduce]
  rfl

@[simp]
theorem toText_anonymous : anonymous.toText = "whatever" := by
  rw [toText_eq_reduce]
  rfl

@[simp]
theorem toText_number (value : Double) : (number value).toText = value.toBrief := by
  rw [toText_eq_reduce]
  rfl

@[simp]
theorem toText_negation (operand : Expr) : (negation operand).toText = "-" ++ operand.toText := by
  rw [toText_eq_reduce, toText_eq_reduce]
  rfl

@[simp]
theorem toText_application (callee argument : Expr) :
    (application callee argument).toText = callee.toText ++ "(" ++ argument.toText ++ ")" := by
  simp only [toText_eq_reduce]
  rfl

@[simp]
theorem toText_mediation (condition consequent alternative : Expr) :
    (mediation condition consequent alternative).toText =
      condition.toText ++ "[" ++ consequent.toText ++ ", " ++ alternative.toText ++ "]" := by
  simp only [toText_eq_reduce]
  rfl

@[simp]
theorem toText_equation (left right : Expr) :
    (binary .equation left right).toText = left.toText ++ " = " ++ right.toText := by
  simp only [toText_eq_reduce]
  rfl

theorem toText_binary {operator : Operator} (other : operator ≠ .equation) (left right : Expr) :
    (binary operator left right).toText =
      "(" ++ left.toText ++ " " ++ operator.sign ++ " " ++ right.toText ++ ")" := by
  simp only [toText_eq_reduce]
  cases operator <;> first | rfl | exact (other rfl).elim

/-! ## Signs in front -/

/-- The tree with some signs in front. -/
def signed (tree : Expr) : Nat → Expr
  | 0 => tree
  | signs + 1 => negation (tree.signed signs)

/-- The number of signs in front of the text of a tree; a mediation starts with its scale. -/
def frontSigns : Expr → Nat
  | negation operand => operand.frontSigns + 1
  | mediation condition _ _ => condition.frontSigns
  | named _ | anonymous | number _ | application _ _ | binary _ _ _ => 0

/-- What the text of a tree is read as behind the signs in front of it. -/
def unsigned : Expr → Expr
  | named name => named name
  | anonymous => anonymous
  | number value => number value
  | negation operand => operand.unsigned
  | application callee argument => application callee (argument.unsigned.signed argument.frontSigns)
  | mediation condition consequent alternative =>
    mediation condition.unsigned (consequent.unsigned.signed consequent.frontSigns)
      (alternative.unsigned.signed alternative.frontSigns)
  | binary .exponentiation left right =>
    (binary .exponentiation left.unsigned (right.unsigned.signed right.frontSigns)).signed left.frontSigns
  | binary operator left right =>
    binary operator (left.unsigned.signed left.frontSigns) (right.unsigned.signed right.frontSigns)

/-- What the text of a tree is read as. -/
def reread (tree : Expr) : Expr := tree.unsigned.signed tree.frontSigns

/-- Whether no base of a power and no scale of a mediation has a sign in front. -/
def isSettled : Expr → Bool
  | named _ | anonymous | number _ => true
  | negation operand => operand.isSettled
  | application _ argument => argument.isSettled
  | mediation condition consequent alternative =>
    condition.frontSigns = 0 && condition.isSettled && consequent.isSettled && alternative.isSettled
  | binary .exponentiation left right => left.frontSigns = 0 && left.isSettled && right.isSettled
  | binary _ left right => left.isSettled && right.isSettled

/-- Signs in front make a negation of every tree. -/
theorem signed_ne {signs : Nat} {tree other : Expr} (signed : signs ≠ 0) (plain : ∀ part, other ≠ negation part) :
    tree.signed signs ≠ other := by
  obtain ⟨fewer, rfl⟩ := Nat.exists_eq_succ_of_ne_zero signed
  exact fun same => plain _ same.symm

/-- A tree is read as itself exactly if no base and no scale has a sign in front. -/
theorem reread_eq_self_iff (tree : Expr) : tree.reread = tree ↔ tree.isSettled = true := by
  induction tree with
  | named name => exact iff_of_true rfl rfl
  | anonymous => exact iff_of_true rfl rfl
  | number value => exact iff_of_true rfl rfl
  | negation operand ih =>
      have read : (negation operand).reread = negation operand.reread := rfl
      rw [read, negation.injEq, ih, isSettled]
  | application callee argument _ ih =>
      have read : (application callee argument).reread = application callee argument.reread := rfl
      rw [read, application.injEq, ih, isSettled]
      exact and_iff_right rfl
  | mediation condition consequent alternative scale first second =>
      have read : (mediation condition consequent alternative).reread =
          (mediation condition.unsigned consequent.reread alternative.reread).signed condition.frontSigns := rfl
      rw [read]
      simp only [isSettled, Bool.and_eq_true, decide_eq_true_eq, ← scale, ← first, ← second]
      by_cases plain : condition.frontSigns = 0
      · have same : condition.reread = condition.unsigned := by rw [reread, plain, signed]
        rw [plain, signed, mediation.injEq, same]
        tauto
      · exact iff_of_false (signed_ne plain fun _ => nofun) fun settled => plain settled.1.1.1
  | binary operator left right first second =>
      by_cases power : operator = .exponentiation
      · subst power
        have read : (binary .exponentiation left right).reread =
            (binary .exponentiation left.unsigned right.reread).signed left.frontSigns := rfl
        rw [read]
        simp only [isSettled, Bool.and_eq_true, decide_eq_true_eq, ← first, ← second]
        by_cases plain : left.frontSigns = 0
        · have same : left.reread = left.unsigned := by rw [reread, plain, signed]
          rw [plain, signed, binary.injEq, same]
          tauto
        · exact iff_of_false (signed_ne plain fun _ => nofun) fun settled => plain settled.1.1
      · have read : (binary operator left right).reread = binary operator left.reread right.reread := by
          cases operator <;> first | rfl | exact (power rfl).elim
        have settled : (binary operator left right).isSettled = (left.isSettled && right.isSettled) := by
          cases operator <;> first | rfl | exact (power rfl).elim
        rw [read, settled, Bool.and_eq_true, ← first, ← second, binary.injEq]
        exact and_iff_right rfl

end Expr

end EquationText
