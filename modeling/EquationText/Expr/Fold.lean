import EquationText.Expr

/-! # Reducing an expression bottom-up

`Expr.fold` combines every node with the results of its operands, from left to right and operands
first, on a work list of its own, so that the depth of a tree does not matter. `Expr.reduce` is the
same reduction by recursion on the tree.
-/

namespace EquationText

namespace Expr

/-- What is left to do for a node: reduce its operands first, or combine their results. -/
inductive Task
  | visit (node : Expr)
  | combine (node : Expr)

/-- An upper bound for the steps that a task takes. -/
def Task.cost : Task → Nat
  | visit node => 2 * node.nodes
  | combine _ => 1

/-- An upper bound for the steps that a work list takes. -/
def workCost : List Task → Nat
  | [] => 0
  | task :: work => task.cost + workCost work

theorem workCost_cons (task : Task) (work : List Task) :
    workCost (task :: work) = task.cost + workCost work := rfl

theorem workCost_append (first second : List Task) :
    workCost (first ++ second) = workCost first + workCost second := by
  induction first with
  | nil => simp [workCost]
  | cons task rest ih => rw [List.cons_append, workCost_cons, workCost_cons, ih, Nat.add_assoc]

theorem workCost_children (node : Expr) :
    workCost (node.children.map Task.visit) + 2 = Task.cost (.visit node) := by
  cases node <;> simp [workCost, children, nodes, Task.cost] <;> omega

universe u v

variable {m : Type u → Type v} [Monad m] {α : Type u}

/-- Works a list of tasks off; `results` holds the results that are not yet used, the latest
first. -/
def foldWork (combine : Expr → List α → m α) : List Task → List α → m (List α)
  | [], results => pure results
  | .visit node :: work, results =>
    if node.children.isEmpty then do
      let result ← combine node []
      foldWork combine work (result :: results)
    else foldWork combine (node.children.map Task.visit ++ .combine node :: work) results
  | .combine node :: work, results => do
    let arity := node.children.length
    let result ← combine node (results.take arity).reverse
    foldWork combine work (result :: results.drop arity)
termination_by work => workCost work
decreasing_by
  · rw [workCost_cons]
    have := workCost_children node
    omega
  · rw [workCost_append, workCost_cons, workCost_cons]
    have := workCost_children node
    simp only [Task.cost] at *
    omega
  · rw [workCost_cons]
    simp [Task.cost]

/-- Reduces an expression bottom-up: `combine` receives a node and the results of its operands, left
to right. -/
def fold [Inhabited α] (combine : Expr → List α → m α) (expr : Expr) : m α := do
  let results ← foldWork combine [.visit expr] []
  pure (results.headD default)

/-- The bottom-up reduction by recursion on the tree. -/
def reduce (combine : Expr → List α → m α) : Expr → m α
  | .named name => combine (.named name) []
  | .anonymous => combine .anonymous []
  | .number value => combine (.number value) []
  | .negation operand => do
    let a ← reduce combine operand
    combine (.negation operand) [a]
  | .application callee argument => do
    let a ← reduce combine callee
    let b ← reduce combine argument
    combine (.application callee argument) [a, b]
  | .mediation condition consequent alternative => do
    let a ← reduce combine condition
    let b ← reduce combine consequent
    let c ← reduce combine alternative
    combine (.mediation condition consequent alternative) [a, b, c]
  | .binary operator left right => do
    let a ← reduce combine left
    let b ← reduce combine right
    combine (.binary operator left right) [a, b]

end Expr

end EquationText
