import EquationText.Expr.Fold
import Mathlib.Tactic.Common

/-! # The work list of a fold

Working a node off on the work list has the effects of its reduction by recursion and leaves its
result on top (`EquationText.Expr.foldWork_visit`), so the two reductions agree
(`EquationText.Expr.fold_eq_reduce`).
-/

namespace EquationText

namespace Expr

universe u v

variable {m : Type u → Type v} [Monad m] {α : Type u} (combine : Expr → List α → m α)

theorem foldWork_combine (node : Expr) (work : List Task) (results : List α) :
    foldWork combine (.combine node :: work) results =
      combine node (results.take node.children.length).reverse >>= fun result =>
        foldWork combine work (result :: results.drop node.children.length) := by
  rw [foldWork]

variable [LawfulMonad m]

/-- Visiting a tree puts its value on top of the results, and then goes on with the work below. By induction on the
tree, for any work and any results. -/
theorem foldWork_visit (node : Expr) (work : List Task) (results : List α) :
    foldWork combine (.visit node :: work) results =
      reduce combine node >>= fun result => foldWork combine work (result :: results) := by
  induction node generalizing work results with
  | named name => rw [foldWork]; rfl
  | anonymous => rw [foldWork]; rfl
  | number value => rw [foldWork]; rfl
  | negation operand ih =>
      rw [foldWork]
      simp only [children, List.isEmpty_cons, Bool.false_eq_true, ↓reduceIte, List.map_cons,
        List.map_nil, List.cons_append, List.nil_append, ih, foldWork_combine, reduce, bind_assoc]
      rfl
  | application callee argument first second =>
      rw [foldWork]
      simp only [children, List.isEmpty_cons, Bool.false_eq_true, ↓reduceIte, List.map_cons,
        List.map_nil, List.cons_append, List.nil_append, first, second, foldWork_combine, reduce,
        bind_assoc]
      rfl
  | mediation condition consequent alternative first second third =>
      rw [foldWork]
      simp only [children, List.isEmpty_cons, Bool.false_eq_true, ↓reduceIte, List.map_cons,
        List.map_nil, List.cons_append, List.nil_append, first, second, third, foldWork_combine,
        reduce, bind_assoc]
      rfl
  | binary operator left right first second =>
      rw [foldWork]
      simp only [children, List.isEmpty_cons, Bool.false_eq_true, ↓reduceIte, List.map_cons,
        List.map_nil, List.cons_append, List.nil_append, first, second, foldWork_combine, reduce,
        bind_assoc]
      rfl

/-- The reduction on a work list is the reduction by recursion. -/
theorem fold_eq_reduce [Inhabited α] (expr : Expr) : fold combine expr = reduce combine expr := by
  rw [fold, foldWork_visit]
  simp [foldWork]

end Expr

end EquationText
