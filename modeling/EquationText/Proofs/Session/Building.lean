import EquationText.Proofs.Action
import EquationText.Proofs.Expr.Program
import EquationText.Proofs.Stack
import EquationText.Solver.Command
import EquationText.Session
import EquationText.Transcript

/-! # Building trees in a session

In a session whose values are trees, the program of a tree pushes the tree if there is room for building
it, and otherwise stops with a full stack; nothing but the stack changes
(`EquationText.Engine.builds_program`). So a program tells its tree
(`EquationText.Expr.program_injective`).
-/

namespace EquationText

variable {σ : Type}

/-- A session with other operands. -/
def Session.holding {ν : Type} (session : Session σ ν) (stack : OperandStack ν)
    (lastOperator : Option Operator) : Session σ ν :=
  { session with stack, lastOperator }

/-- Whether the values of an engine are trees, and it has room for fewer of them where it has room for
more. -/
structure Engine.BuildsTrees (engine : Engine σ Expr) : Prop where
  named : engine.named = .named
  anonymous : engine.anonymous = .anonymous
  number : engine.number = .number
  construct : engine.construct = Expr.ofOperands
  hasRoom_of_le : ∀ {state : σ} {more fewer : Int}, fewer ≤ more → engine.hasRoom state more = true →
    engine.hasRoom state fewer = true

theorem Solver.hasRoom_of_le {solver : Solver} {more fewer : Int} (le : fewer ≤ more)
    (room : solver.hasRoom more = true) : solver.hasRoom fewer = true := by
  simp only [hasRoom, Bool.and_eq_true, decide_eq_true_eq] at room ⊢
  exact ⟨room.1, Int.le_trans le room.2⟩

theorem linearEngine_buildsTrees (settings : Settings) : (linearEngine settings).BuildsTrees where
  named := rfl
  anonymous := rfl
  number := rfl
  construct := rfl
  hasRoom_of_le := Solver.hasRoom_of_le

theorem treeRecordEngine_buildsTrees (settings : Settings) :
    (treeRecordEngine settings).BuildsTrees where
  named := rfl
  anonymous := rfl
  number := rfl
  construct := rfl
  hasRoom_of_le := Solver.hasRoom_of_le

namespace Engine

/-! ## Programs in a row -/

theorem executeAll_append {ν : Type} (engine : Engine σ ν) (first second : List Instruction) :
    engine.executeAll (first ++ second) =
      (do engine.executeAll first; engine.executeAll second) := by
  induction first with
  | nil => rfl
  | cons instruction rest ih => simp only [List.cons_append, executeAll, ih, Action.bind_assoc]

variable {engine : Engine σ Expr} {session : Session σ Expr} {program first second : List Instruction}
  {stack middle : OperandStack Expr} {last between : Option Operator} {room more : Nat}

/-- Whether a program that is carried out in a session leaves a stack and the operator that built its
topmost value if there is `room` beyond the values that are there, and stops with a full stack if there
is not. -/
structure Builds (engine : Engine σ Expr) (session : Session σ Expr) (program : List Instruction)
    (room : Nat) (stack : OperandStack Expr) (last : Option Operator) : Prop where
  run : ∀ log, engine.hasRoom session.engine ((session.stack.depth + room : Nat) : Int) = true →
    engine.executeAll program ⟨session, log⟩ =
      (.ok (), ⟨session.holding stack last, log⟩)
  overflow : ∀ log,
    engine.hasRoom session.engine ((session.stack.depth + room : Nat) : Int) = false →
    ∃ left operator, engine.executeAll program ⟨session, log⟩ =
      (.error Cause.stackFull.unplaced, ⟨session.holding left operator, log⟩)

namespace Builds

variable (trees : engine.BuildsTrees)
include trees

/-- A program after another one asks for the room of both. -/
theorem trans (left : engine.Builds session first room middle between)
    (right : engine.Builds (session.holding middle between) second more stack last) {height : Nat}
    (depth : middle.depth = session.stack.depth + height) :
    engine.Builds session (first ++ second) (max room (more + height)) stack last where
  run log enough := by
    have leftRun := left.run log (trees.hasRoom_of_le (by omega) enough)
    have rightRun := right.run log
      (trees.hasRoom_of_le (by change ((middle.depth + more : Nat) : Int) ≤ _; omega) enough)
    rw [executeAll_append, Action.run_bind_of_ok leftRun]
    exact rightRun
  overflow log short := by
    rw [executeAll_append]
    cases leftRoom : engine.hasRoom session.engine ((session.stack.depth + room : Nat) : Int) with
    | false =>
        obtain ⟨rest, operator, leftRun⟩ := left.overflow log leftRoom
        exact ⟨rest, operator, Action.run_bind_of_error leftRun⟩
    | true =>
        have rightRoom : engine.hasRoom session.engine ((middle.depth + more : Nat) : Int) = false := by
          by_contra enough
          have both : engine.hasRoom session.engine
              ((session.stack.depth + max room (more + height) : Nat) : Int) = true := by
            rcases Nat.le_total room (more + height) with le | le
            · exact trees.hasRoom_of_le (by omega) ((Bool.not_eq_false _).mp enough)
            · exact trees.hasRoom_of_le (by omega) leftRoom
          rw [both] at short
          cases short
        obtain ⟨rest, operator, rightRun⟩ := right.overflow log rightRoom
        exact ⟨rest, operator, (Action.run_bind_of_ok (left.run log leftRoom)).trans rightRun⟩

end Builds

/-! ## Single instructions -/

theorem ensureRoom_of_room {ν : Type} {engine : Engine σ ν} (before : Traced (Session σ ν))
    {extra : Nat} (room : engine.hasRoom before.state.engine
      ((before.state.stack.depth + extra : Nat) : Int) = true) :
    engine.ensureRoom extra before = (.ok (), before) := by
  unfold ensureRoom
  rw [Action.run_bind_of_ok Action.run_get, if_pos room]
  rfl

theorem ensureRoom_of_no_room {ν : Type} {engine : Engine σ ν} (before : Traced (Session σ ν))
    {extra : Nat} (short : engine.hasRoom before.state.engine
      ((before.state.stack.depth + extra : Nat) : Int) = false) :
    engine.ensureRoom extra before = (.error Cause.stackFull.unplaced, before) := by
  unfold ensureRoom
  rw [Action.run_bind_of_ok Action.run_get, if_neg (ne_true_of_eq_false short)]
  rfl

theorem builds_push {instruction : Instruction} {tree : Expr}
    (pushes : engine.execute instruction = engine.pushOperand room tree) :
    engine.Builds session [instruction] room (session.stack.push tree) none where
  run log enough := by
    rw [executeAll, pushes, pushOperand]
    simp only [bind, ensureRoom_of_room ⟨session, log⟩ enough]
    rfl
  overflow log short := by
    refine ⟨session.stack, session.lastOperator, ?_⟩
    rw [executeAll, pushes, pushOperand]
    simp only [bind, ensureRoom_of_no_room ⟨session, log⟩ short]
    rfl

/-- An operator replaces its operands by the tree built of them. -/
theorem apply_of_room (trees : engine.BuildsTrees) {operator : Operator} {operands below : List Expr}
    {tree : Expr} {log : Array Entry} (built : Expr.ofOperands operator operands = .ok tree)
    (all : operands.length = operator.arity)
    (top : session.stack.topFirst = operands.reverse ++ below)
    (room : engine.hasRoom session.engine ((session.stack.depth + 1 : Nat) : Int) = true) :
    engine.apply operator ⟨session, log⟩ =
      (.ok (), ⟨session.holding ⟨tree :: below⟩ (some operator), log⟩) := by
  have held : ¬ session.stack.depth < operator.arity := by simp [OperandStack.depth, top, all]
  have popped : session.stack.pop operator.arity = .ok (operands, ⟨below⟩) := by
    rw [← all]
    exact OperandStack.pop_append top
  unfold apply
  rw [Action.run_bind_of_ok (ensureRoom_of_room _ room), Action.run_bind_of_ok Action.run_get,
    if_neg held, popped, trees.construct]
  simp only [Action.ofExcept, bind, pure, built]
  rfl

theorem builds_apply (trees : engine.BuildsTrees) (session : Session σ Expr) {operator : Operator}
    {operands below : List Expr} {tree : Expr} (built : Expr.ofOperands operator operands = .ok tree)
    (all : operands.length = operator.arity)
    (top : session.stack.topFirst = operands.reverse ++ below) :
    engine.Builds session [.apply operator] 1 ⟨tree :: below⟩ (some operator) where
  run _ enough := Action.run_bind_of_ok (apply_of_room trees built all top enough)
  overflow _ short :=
    ⟨session.stack, session.lastOperator, Action.run_bind_of_error (Action.run_bind_of_error
      (ensureRoom_of_no_room _ short))⟩

/-! ## Trees -/

/-- The program of a tree pushes the tree. -/
theorem builds_program (trees : engine.BuildsTrees) {tree : Expr}
    (wellFormed : tree.isWellFormed = true) (session : Session σ Expr) :
    engine.Builds session tree.program tree.room (session.stack.push tree) tree.operator? := by
  induction tree generalizing session with
  | named name => exact builds_push (by rw [execute, pushNamed, trees.named, Expr.room])
  | anonymous => exact builds_push (by rw [execute, pushAnonymous, trees.anonymous, Expr.room])
  | number value => exact builds_push (by rw [execute, pushNumber, trees.number, Expr.room])
  | negation operand ih =>
      let operands := session.holding (session.stack.push operand) operand.operator?
      have built : Expr.ofOperands .negation [operand] = .ok (.negation operand) := rfl
      have applied := builds_apply trees operands built rfl rfl
      exact (ih wellFormed session).trans trees applied rfl
  | application callee argument first second =>
      simp only [Expr.isWellFormed, Bool.and_eq_true] at wellFormed
      let callees := session.holding (session.stack.push callee) callee.operator?
      let arguments := callees.holding (callees.stack.push argument) argument.operator?
      have built : Expr.ofOperands .application [callee, argument] =
          .ok (.application callee argument) := rfl
      have applied := builds_apply trees arguments built rfl rfl
      have inner := (second wellFormed.2 callees).trans trees applied rfl
      have whole := (first wellFormed.1 session).trans trees inner rfl
      rwa [← Nat.add_max_add_right] at whole
  | mediation condition consequent alternative first second third =>
      simp only [Expr.isWellFormed, Bool.and_eq_true] at wellFormed
      let scales := session.holding (session.stack.push condition) condition.operator?
      let pairs := scales.holding (scales.stack.push consequent) consequent.operator?
      let triples := pairs.holding (pairs.stack.push alternative) alternative.operator?
      have built : Expr.ofOperands .mediation [condition, consequent, alternative] =
          .ok (.mediation condition consequent alternative) := rfl
      have applied := builds_apply trees triples built rfl rfl
      have inner := (third wellFormed.2 pairs).trans trees applied rfl
      have middle := (second wellFormed.1.2 scales).trans trees inner rfl
      have whole := (first wellFormed.1.1 session).trans trees middle rfl
      rwa [← Nat.add_max_add_right, ← Nat.add_max_add_right, ← Nat.add_max_add_right] at whole
  | binary operator left right first second =>
      simp only [Expr.isWellFormed, Bool.and_eq_true] at wellFormed
      have built : Expr.ofOperands operator [left, right] = .ok (.binary operator left right) := by
        cases operator <;> first | rfl | cases wellFormed.1.1
      have arity : operator.arity = 2 := by cases operator <;> first | rfl | cases wellFormed.1.1
      let lefts := session.holding (session.stack.push left) left.operator?
      let rights := lefts.holding (lefts.stack.push right) right.operator?
      have top : rights.stack.topFirst = [left, right].reverse ++ session.stack.topFirst := rfl
      have applied := builds_apply trees rights built arity.symm top
      have inner := (second wellFormed.2 lefts).trans trees applied rfl
      have whole := (first wellFormed.1.2 session).trans trees inner rfl
      rwa [← Nat.add_max_add_right] at whole

/-- The programs of some trees push the trees, or stop with a full stack. -/
theorem executeAll_programs (trees : engine.BuildsTrees) {values : List Expr}
    (wellFormed : ∀ value ∈ values, value.isWellFormed = true) (session : Session σ Expr)
    (log : Array Entry) :
    ∃ outcome stack last, engine.executeAll (Expr.programs values) ⟨session, log⟩ =
        (outcome, ⟨session.holding stack last, log⟩) ∧
      (outcome = .ok () ∨ outcome = .error Cause.stackFull.unplaced) := by
  induction values generalizing session with
  | nil => exact ⟨.ok (), session.stack, session.lastOperator, rfl, .inl rfl⟩
  | cons value rest ih =>
      obtain ⟨first, others⟩ := List.forall_mem_cons.mp wellFormed
      have builds := builds_program trees first session
      rw [Expr.programs, List.flatMap_cons, executeAll_append]
      cases room : engine.hasRoom session.engine ((session.stack.depth + value.room : Nat) : Int) with
      | true =>
          rw [Action.run_bind_of_ok (builds.run log room)]
          exact ih others _
      | false =>
          obtain ⟨stack, last, run⟩ := builds.overflow log room
          exact ⟨_, stack, last, Action.run_bind_of_error run, .inr rfl⟩

end Engine

/-- A tree that is put together well is told by its program. -/
theorem Expr.program_injective {first second : Expr} (firstWellFormed : first.isWellFormed = true)
    (secondWellFormed : second.isWellFormed = true) (same : first.program = second.program) :
    first = second := by
  let solver : Solver :=
    { Solver.start {} false none none with maxDepth := (max first.room second.room : Nat) }
  let session : Session Solver Expr := .start solver
  have trees := linearEngine_buildsTrees {}
  have enough : ∀ room ≤ max first.room second.room,
      (linearEngine {}).hasRoom solver ((session.stack.depth + room : Nat) : Int) = true := by
    intro room le
    have depth : ((session.stack.depth + room : Nat) : Int) = (room : Int) := by
      rw [show session.stack.depth = 0 from rfl, Nat.zero_add]
    rw [depth]
    simpa [linearEngine, Solver.hasRoom, solver, Solver.start] using le
  have firstRun := (Engine.builds_program trees firstWellFormed session).run #[]
    (enough _ (Nat.le_max_left ..))
  have secondRun := (Engine.builds_program trees secondWellFormed session).run #[]
    (enough _ (Nat.le_max_right ..))
  rw [same, secondRun] at firstRun
  exact (List.cons.inj (congrArg (fun run => run.2.state.stack.topFirst) firstRun)).1.symm

end EquationText
