import EquationText.Document.Process
import EquationText.Proofs.Session.Building

/-! # Equations in a session

A session that is idle and holds no operands builds the tree of an equation, hands it to the engine with
nothing else on the stack (`EquationText.Engine.perform_equation_of_room`). Without room for the tree the
statement ends with a full stack.
-/

namespace EquationText

variable {σ : Type}

namespace Session

variable {ν : Type} {session : Session σ ν} {log : Array Entry}

/-- A session between two statements. -/
structure IsReady (session : Session σ ν) : Prop where
  empty : session.stack = .empty
  idle : session.phase = .idle

theorem reset_isReady (session : Session σ ν) : session.reset.IsReady := ⟨rfl, rfl⟩

/-- The session with an open statement on which some operands have been built. -/
def building (session : Session σ ν) (stack : OperandStack ν) (lastOperator : Option Operator) :
    Session σ ν :=
  { session.holding stack lastOperator with phase := .accumulating }

theorem begin_of_idle (idle : session.phase = .idle) :
    begin ⟨session, log⟩ = (.ok (), ⟨session.building session.stack session.lastOperator, log⟩) := by
  unfold begin
  rw [Action.run_bind_of_ok Action.run_get, if_pos idle]
  rfl

end Session

namespace Engine

section Statement

variable {ν α : Type} {action : Action (Session σ ν) α} {before after : Traced (Session σ ν)} {line : Nat}

theorem run_inStatement_of_ok {a : α} (ok : action before = (.ok a, after)) :
    inStatement line action before = (.ok a, after) := by
  simp only [inStatement, Action.onFault, ok]

/-- A reported fault is placed in its statement, which is closed. -/
theorem run_inStatement_of_reported {fault : Fault} (error : action before = (.error fault, after))
    (reported : fault.cause.isReported = true) :
    inStatement line action before =
      (.error (fault.placedAt line), ⟨after.state.reset, after.log⟩) := by
  simp only [inStatement, Action.onFault, error, reported, ↓reduceIte]

/-- Any other fault leaves its statement as it is. -/
theorem run_inStatement_of_not_reported {fault : Fault}
    (error : action before = (.error fault, after)) (escapes : fault.cause.isReported = false) :
    inStatement line action before = (.error fault, after) := by
  simp only [inStatement, Action.onFault, error, escapes, Bool.false_eq_true, ↓reduceIte]

/-- A statement fails where its action does; its fault is placed if it is reported. -/
theorem exists_of_inStatement_error {fault : Fault}
    (run : inStatement line action before = (.error fault, after)) :
    ∃ found middle, action before = (.error found, middle) ∧ fault = found.placedAt line := by
  rcases inner : action before with ⟨found | _, middle⟩
  · refine ⟨found, middle, rfl, ?_⟩
    cases reported : found.cause.isReported with
    | true =>
        rw [run_inStatement_of_reported inner reported] at run
        cases run
        rfl
    | false =>
        rw [run_inStatement_of_not_reported inner reported] at run
        cases run
        simp only [Fault.placedAt, reported, Bool.false_eq_true, ↓reduceIte]
  · rw [run_inStatement_of_ok inner] at run
    cases run

theorem run_inStatement_congr {other : Action (Session σ ν) α} {middle : Traced (Session σ ν)}
    (same : action before = other middle) :
    inStatement line action before = inStatement line other middle := by
  simp only [inStatement, Action.onFault, same]

end Statement

/-! ## Building equations -/

/-- Opens a statement and builds its operands. -/
def build {ν : Type} (engine : Engine σ ν) (program : List Instruction) : Action (Session σ ν) Unit := do
  Session.begin
  engine.executeAll program

theorem perform_equation {ν : Type} (engine : Engine σ ν) (line : Nat) (program : List Instruction) :
    engine.perform (.equation line program) =
      inStatement line
        (engine.build program >>= fun _ => engine.finishEquation >>= fun _ => pure ()) := by
  rw [build, Action.bind_assoc]
  rfl

theorem perform_unfinished {ν : Type} (engine : Engine σ ν) (line : Nat) (program : List Instruction)
    (fault : Fault) :
    engine.perform (.unfinished line true program fault) =
      inStatement line (engine.build program >>= fun _ => Action.fail fault) := by
  rw [build, Action.bind_assoc]
  rfl

variable {engine : Engine σ Expr} {session : Session σ Expr} {log : Array Entry} {tree : Expr}
  {line : Nat}

/-- Building the trees of a statement succeeds or stops with a full stack. -/
theorem build_programs (trees : engine.BuildsTrees) (idle : session.phase = .idle)
    (log : Array Entry) {values : List Expr} (wellFormed : ∀ value ∈ values, value.isWellFormed = true) :
    ∃ outcome stack last, engine.build (Expr.programs values) ⟨session, log⟩ =
        (outcome, ⟨session.building stack last, log⟩) ∧
      (outcome = .ok () ∨ outcome = .error Cause.stackFull.unplaced) := by
  obtain ⟨outcome, stack, last, run, ends⟩ := executeAll_programs trees wellFormed
    (session.building session.stack session.lastOperator) log
  exact ⟨outcome, stack, last, (Action.run_bind_of_ok (Session.begin_of_idle idle)).trans run, ends⟩

section Equation

variable (trees : engine.BuildsTrees) (ready : session.IsReady) (wellFormed : tree.isWellFormed = true)
include trees ready wellFormed

omit ready in
theorem builds_equation : engine.Builds (session.building .empty session.lastOperator) tree.program
    tree.room ⟨[tree]⟩ tree.operator? :=
  builds_program trees wellFormed (session.building .empty session.lastOperator)

/-- With room for it a tree is built in a session that is ready. -/
theorem build_of_room (log : Array Entry)
    (room : engine.hasRoom session.engine (tree.room : Nat) = true) :
    engine.build tree.program ⟨session, log⟩ =
      (.ok (), ⟨session.building ⟨[tree]⟩ tree.operator?, log⟩) := by
  have run := (builds_equation trees wellFormed).run log (by
    rwa [show (session.building .empty session.lastOperator).stack.depth = 0 from rfl, Nat.zero_add])
  rw [build, Action.run_bind_of_ok (Session.begin_of_idle ready.idle), ready.empty]
  exact run

theorem build_of_no_room (log : Array Entry)
    (short : engine.hasRoom session.engine (tree.room : Nat) = false) :
    ∃ stack last, engine.build tree.program ⟨session, log⟩ =
      (.error Cause.stackFull.unplaced, ⟨session.building stack last, log⟩) := by
  obtain ⟨stack, last, run⟩ := (builds_equation trees wellFormed).overflow log (by
    rwa [show (session.building .empty session.lastOperator).stack.depth = 0 from rfl, Nat.zero_add])
  rw [build, Action.run_bind_of_ok (Session.begin_of_idle ready.idle), ready.empty]
  exact ⟨stack, last, run⟩

/-- With room for building an equation the statement comes down to handing its tree over. -/
theorem perform_equation_of_room (room : engine.hasRoom session.engine (tree.room : Nat) = true) :
    engine.perform (.equation line tree.program) ⟨session, log⟩ =
      inStatement line (engine.finishEquation >>= fun _ => pure ())
        ⟨session.building ⟨[tree]⟩ tree.operator?, log⟩ := by
  rw [perform_equation]
  exact run_inStatement_congr (Action.run_bind_of_ok (build_of_room trees ready wellFormed log room))

/-- Without room for building an equation the statement ends with a full stack. -/
theorem perform_equation_of_no_room (short : engine.hasRoom session.engine (tree.room : Nat) = false) :
    engine.perform (.equation line tree.program) ⟨session, log⟩ =
      (.error (Cause.stackFull.onLine line), ⟨session.reset, log⟩) := by
  obtain ⟨stack, last, run⟩ := build_of_no_room trees ready wellFormed log short
  rw [perform_equation]
  exact run_inStatement_of_reported (Action.run_bind_of_error run) rfl

end Equation

end Engine

end EquationText
