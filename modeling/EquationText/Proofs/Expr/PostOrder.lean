import Mathlib.Data.List.Basic
import EquationText.Proofs.Expr.Reduction

/-! # The order in which a fold combines

A fold combines every node of a tree once, in post-order and each time with the results of its operands, up to
the first failure, and comes to what recursion on the tree comes to
(`EquationText.Expr.fold_in_postOrder`). The function that it combines with may fail and carry a state; the
calls are read off a function that keeps them (`EquationText.Expr.recorded`).
-/

namespace EquationText

namespace Expr

/-- The nodes of a tree, the operands of each before it and from left to right. -/
def postOrder : Expr → List Expr
  | named name => [named name]
  | anonymous => [anonymous]
  | number value => [number value]
  | negation operand => operand.postOrder ++ [negation operand]
  | application callee argument =>
    callee.postOrder ++ argument.postOrder ++ [application callee argument]
  | mediation condition consequent alternative =>
    condition.postOrder ++ consequent.postOrder ++ alternative.postOrder ++
      [mediation condition consequent alternative]
  | binary operator left right => left.postOrder ++ right.postOrder ++ [binary operator left right]

theorem postOrder_eq (tree : Expr) : tree.postOrder = tree.children.flatMap postOrder ++ [tree] := by
  cases tree <;> simp [postOrder, children]

theorem length_postOrder (tree : Expr) : tree.postOrder.length = tree.nodes := by
  induction tree <;> simp_all [postOrder, nodes, Nat.add_assoc]

/-- What a tree has whenever its operands have it, every tree has. -/
theorem induction_children {motive : Expr → Prop}
    (step : ∀ tree, (∀ child ∈ tree.children, motive child) → motive tree) (tree : Expr) :
    motive tree := by
  induction tree <;> exact step _ (by simp_all [children])

variable {ε σ α : Type}

/-- One call of the function that a fold combines with, and what it came to. -/
structure Combination (ε α : Type) where
  node : Expr
  operands : List α
  result : Except ε α

/-- The function that also keeps its calls, in the order in which they are made. -/
def recorded (combine : Expr → List α → ExceptT ε (StateM σ) α) :
    Expr → List α → ExceptT ε (StateM (σ × List (Combination ε α))) α :=
  fun node operands (state, calls) =>
    match combine node operands state with
    | (result, after) => (result, (after, calls ++ [⟨node, operands, result⟩]))

/-- Whether some calls are the first of those for some nodes, and the last of them fails with a fault that none
before it has. -/
inductive AreStopped (nodes : List Expr) (fault : ε) : List (Combination ε α) → Prop
  | intro {earlier : List (Combination ε α)} {node : Expr} {operands : List α}
    (part : earlier.map (·.node) ++ [node] <+: nodes) (succeeded : ∀ call ∈ earlier, ∃ a, call.result = .ok a) :
    AreStopped nodes fault (earlier ++ [⟨node, operands, .error fault⟩])

/-- Whether some calls are those of a tree that comes to a result: all of its nodes in post-order, up to the
first that fails. -/
inductive IsRecord (tree : Expr) : Except ε α → List (Combination ε α) → Prop
  | whole {earlier : List (Combination ε α)} {operands : List α} {a : α}
    (nodes : earlier.map (·.node) ++ [tree] = tree.postOrder)
    (succeeded : ∀ call ∈ earlier, ∃ b, call.result = .ok b) :
    IsRecord tree (.ok a) (earlier ++ [⟨tree, operands, .ok a⟩])
  | stopped {calls : List (Combination ε α)} {fault : ε} (part : AreStopped tree.postOrder fault calls) :
    IsRecord tree (.error fault) calls

/-- Whether some calls are those of some trees, one after another, that come to these results. -/
inductive AreRecords : List Expr → List α → List (Combination ε α) → Prop
  | nil : AreRecords [] [] []
  | cons {tree : Expr} {trees : List Expr} {a : α} {results : List α} {first others : List (Combination ε α)}
    (head : IsRecord tree (.ok a) first) (tail : AreRecords trees results others) :
    AreRecords (tree :: trees) (a :: results) (first ++ others)

/-- Whether every call is made with the results of the operands of its node: right before it come the calls
of each of them. -/
def AreFed (calls : List (Combination ε α)) : Prop :=
  ∀ earlier call later, calls = earlier ++ call :: later →
    ∃ before blocks, earlier = before ++ blocks ∧ AreRecords call.node.children call.operands blocks

section Records

variable {tree : Expr} {trees : List Expr} {results : List α} {calls blocks : List (Combination ε α)}
  {call : Combination ε α}

theorem AreFed.nil : AreFed ([] : List (Combination ε α)) := by
  intro earlier call later same
  simp at same

theorem AreFed.snoc (fed : AreFed (calls ++ blocks))
    (operands : AreRecords call.node.children call.operands blocks) : AreFed (calls ++ (blocks ++ [call])) := by
  intro earlier found later same
  rw [← List.append_assoc] at same
  rcases later.eq_nil_or_concat' with rfl | ⟨most, last, rfl⟩
  · obtain ⟨front, back⟩ := List.append_inj' same rfl
    cases back
    exact ⟨calls, blocks, front.symm, operands⟩
  · rw [← List.cons_append, ← List.append_assoc] at same
    exact fed earlier found most (List.append_inj' same rfl).1

theorem AreStopped.mono {nodes whole : List Expr} {fault : ε} (stopped : AreStopped nodes fault calls)
    (part : nodes <+: whole) : AreStopped whole fault calls := by
  cases stopped with
  | intro inner succeeded => exact .intro (inner.trans part) succeeded

/-- Calls that succeed may come before. -/
theorem AreStopped.after {nodes before : List Expr} {fault : ε} {earlier : List (Combination ε α)}
    (stopped : AreStopped nodes fault calls) (passed : earlier.map (·.node) = before)
    (succeeded : ∀ call ∈ earlier, ∃ a, call.result = .ok a) :
    AreStopped (before ++ nodes) fault (earlier ++ calls) := by
  cases stopped with
  | intro inner innerSucceeded =>
      rw [← List.append_assoc]
      refine .intro ?_ (List.forall_mem_append.mpr ⟨succeeded, innerSucceeded⟩)
      rw [List.map_append, passed, List.append_assoc]
      exact (List.prefix_append_right_inj before).mpr inner

theorem IsRecord.nodes {a : α} (record : IsRecord tree (.ok a : Except ε α) calls) :
    calls.map (·.node) = tree.postOrder ∧ ∀ call ∈ calls, ∃ b, call.result = .ok b := by
  cases record with
  | whole nodes succeeded =>
      refine ⟨by simpa using nodes, List.forall_mem_append.mpr ⟨succeeded, ?_⟩⟩
      exact List.forall_mem_singleton.mpr ⟨a, rfl⟩

theorem AreRecords.nodes (records : AreRecords trees results calls) :
    calls.map (·.node) = trees.flatMap postOrder ∧ ∀ call ∈ calls, ∃ b, call.result = .ok b := by
  induction records with
  | nil => exact ⟨rfl, List.forall_mem_nil _⟩
  | cons head tail ih =>
      obtain ⟨nodes, succeeded⟩ := head.nodes
      refine ⟨?_, List.forall_mem_append.mpr ⟨succeeded, ih.2⟩⟩
      rw [List.map_append, nodes, ih.1, List.flatMap_cons]

theorem AreRecords.length_eq (records : AreRecords trees results calls) : results.length = trees.length := by
  induction records with
  | nil => rfl
  | cons head tail ih => rw [List.length_cons, List.length_cons, ih]

/-- The call of a node ends its record. -/
theorem IsRecord.of_operands (operands : AreRecords tree.children results calls) (result : Except ε α) :
    IsRecord tree result (calls ++ [⟨tree, results, result⟩]) := by
  obtain ⟨nodes, succeeded⟩ := operands.nodes
  have whole : calls.map (·.node) ++ [tree] = tree.postOrder := by rw [nodes, ← postOrder_eq]
  cases result with
  | ok a => exact .whole whole succeeded
  | error fault => exact .stopped (.intro (whole ▸ List.prefix_rfl) succeeded)

end Records

/-! ## Runs -/

theorem run_bind_of_ok {β γ : Type} {first : ExceptT ε (StateM σ) β} {next : β → ExceptT ε (StateM σ) γ}
    {b : β} {before after : σ} (ok : first before = (.ok b, after)) : (first >>= next) before = next b after := by
  simp only [bind, ExceptT.bind, ExceptT.mk, StateT.bind, ok]
  rfl

theorem run_bind_of_error {β γ : Type} {first : ExceptT ε (StateM σ) β} {next : β → ExceptT ε (StateM σ) γ}
    {fault : ε} {before after : σ} (error : first before = (.error fault, after)) :
    (first >>= next) before = (.error fault, after) := by
  simp only [bind, ExceptT.bind, ExceptT.mk, StateT.bind, error]
  rfl

/-- Reducing a tree is reducing its operands from left to right, and then combining it. -/
theorem reduce_eq {m : Type → Type} [Monad m] [LawfulMonad m] (combine : Expr → List α → m α) (tree : Expr) :
    reduce combine tree = tree.children.mapM (reduce combine) >>= combine tree := by
  cases tree <;> simp [reduce, children]

variable (combine : Expr → List α → ExceptT ε (StateM σ) α)

/-- Whether reducing a tree with the recorded function leaves its record behind, and is otherwise as it was. -/
def KeepsRecord (tree : Expr) : Prop :=
  ∀ state calls, AreFed calls → ∃ made,
    reduce (recorded combine) tree (state, calls) =
      ((reduce combine tree state).1, (reduce combine tree state).2, calls ++ made) ∧
    AreFed (calls ++ made) ∧ IsRecord tree (reduce combine tree state).1 made

/-- Trees that are reduced one after another leave their records behind. -/
theorem run_mapM_recorded {trees : List Expr} (keeps : ∀ tree ∈ trees, KeepsRecord combine tree) (state : σ)
    (calls : List (Combination ε α)) (fed : AreFed calls) :
    ∃ made, trees.mapM (reduce (recorded combine)) (state, calls) =
        ((trees.mapM (reduce combine) state).1, (trees.mapM (reduce combine) state).2, calls ++ made) ∧
      AreFed (calls ++ made) ∧
      (∀ results, (trees.mapM (reduce combine) state).1 = .ok results → AreRecords trees results made) ∧
      ∀ fault, (trees.mapM (reduce combine) state).1 = .error fault →
        AreStopped (trees.flatMap postOrder) fault made := by
  induction trees generalizing state calls with
  | nil =>
      refine ⟨[], by rw [List.append_nil]; rfl, by rwa [List.append_nil], fun results ok => ?_, nofun⟩
      cases ok
      exact .nil
  | cons tree trees ih =>
      obtain ⟨head, others⟩ := List.forall_mem_cons.mp keeps
      obtain ⟨first, firstRun, firstFed, record⟩ := head state calls fed
      rcases run : reduce combine tree state with ⟨fault | a, middle⟩
      · rw [run] at firstRun record
        have whole : (tree :: trees).mapM (reduce combine) state = (.error fault, middle) := by
          rw [List.mapM_cons, run_bind_of_error run]
        cases record with
        | stopped part =>
            refine ⟨first, ?_, firstFed, ?_, ?_⟩
            all_goals rw [whole]
            · rw [List.mapM_cons, run_bind_of_error firstRun]
            · nofun
            · rintro _ ⟨⟩
              exact part.mono (List.prefix_append ..)
      · rw [run] at firstRun record
        obtain ⟨nodes, succeeded⟩ := record.nodes
        obtain ⟨later, laterRun, laterFed, laterOk, laterError⟩ := ih others middle (calls ++ first) firstFed
        rw [List.append_assoc] at laterRun laterFed
        rcases rest : trees.mapM (reduce combine) middle with ⟨fault | results, after⟩
        · rw [rest] at laterRun laterError
          have whole : (tree :: trees).mapM (reduce combine) state = (.error fault, after) := by
            rw [List.mapM_cons, run_bind_of_ok run, run_bind_of_error rest]
          refine ⟨first ++ later, ?_, laterFed, ?_, ?_⟩
          all_goals rw [whole]
          · rw [List.mapM_cons, run_bind_of_ok firstRun, run_bind_of_error laterRun]
          · nofun
          · rintro _ ⟨⟩
            exact (laterError fault rfl).after nodes succeeded
        · rw [rest] at laterRun laterOk
          have whole : (tree :: trees).mapM (reduce combine) state = (.ok (a :: results), after) := by
            rw [List.mapM_cons, run_bind_of_ok run, run_bind_of_ok rest]
            rfl
          refine ⟨first ++ later, ?_, laterFed, ?_, ?_⟩
          all_goals rw [whole]
          · rw [List.mapM_cons, run_bind_of_ok firstRun, run_bind_of_ok laterRun]
            rfl
          · rintro _ ⟨⟩
            exact .cons record (laterOk results rfl)
          · nofun

/-- Reducing a tree leaves its record behind. -/
theorem keepsRecord (tree : Expr) : KeepsRecord combine tree := by
  induction tree using induction_children with
  | step tree ih =>
      intro state calls fed
      obtain ⟨blocks, blocksRun, blocksFed, blocksOk, blocksError⟩ := run_mapM_recorded combine ih state calls fed
      rw [reduce_eq (recorded combine), reduce_eq combine]
      rcases run : tree.children.mapM (reduce combine) state with ⟨fault | results, middle⟩
      · rw [run] at blocksRun blocksError
        refine ⟨blocks, ?_, blocksFed, ?_⟩
        all_goals rw [run_bind_of_error run]
        · rw [run_bind_of_error blocksRun]
        · refine .stopped ((blocksError fault rfl).mono ?_)
          rw [postOrder_eq]
          exact List.prefix_append ..
      · rw [run] at blocksRun blocksOk
        have operands := blocksOk results rfl
        refine ⟨blocks ++ [⟨tree, results, (combine tree results middle).1⟩], ?_, blocksFed.snoc operands, ?_⟩
        all_goals rw [run_bind_of_ok run]
        · rw [run_bind_of_ok blocksRun, ← List.append_assoc]
          rfl
        · exact .of_operands operands _

/-- Every call has as many results as its node has operands. -/
theorem AreFed.length_eq {calls : List (Combination ε α)} (fed : AreFed calls) :
    ∀ call ∈ calls, call.operands.length = call.node.children.length := by
  intro call found
  obtain ⟨earlier, later, rfl⟩ := List.append_of_mem found
  obtain ⟨before, blocks, -, operands⟩ := fed earlier call later rfl
  exact operands.length_eq

/-- The record of a tree that comes to a result has one call for each node. -/
theorem IsRecord.length_eq {tree : Expr} {a : α} {calls : List (Combination ε α)}
    (record : IsRecord tree (.ok a) calls) : calls.length = tree.nodes := by
  rw [← length_postOrder, ← record.nodes.1, List.length_map]

/-- A fold calls the function that it combines with once for each node, in post-order and each time with the
results of the operands of the node, of which there are never too few; it stops at the first call that fails, and
comes to what the reduction by recursion comes to. Working the tree off leaves its result alone. -/
theorem fold_in_postOrder [Inhabited α] (tree : Expr) (state : σ) :
    ∃ calls, fold (recorded combine) tree (state, []) =
        ((reduce combine tree state).1, (reduce combine tree state).2, calls) ∧
      fold combine tree state = reduce combine tree state ∧
      foldWork combine [.visit tree] [] = (fun a => [a]) <$> reduce combine tree ∧
      IsRecord tree (reduce combine tree state).1 calls ∧ AreFed calls ∧
      (∀ call ∈ calls, call.operands.length = call.node.children.length) ∧
      ∀ a, (reduce combine tree state).1 = .ok a → calls.length = tree.nodes := by
  obtain ⟨calls, run, fed, record⟩ := keepsRecord combine tree state [] .nil
  rw [List.nil_append] at run fed
  refine ⟨calls, by rw [fold_eq_reduce, run], by rw [fold_eq_reduce], ?_, record, fed, fed.length_eq, ?_⟩
  · rw [foldWork_visit, map_eq_pure_bind]
    simp only [foldWork]
  · intro a ok
    rw [ok] at record
    exact record.length_eq

end Expr

end EquationText
