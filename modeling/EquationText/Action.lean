import EquationText.Fault
import EquationText.Log

/-! # Actions

An action changes a state, writes to a log and may stop with a fault. What was changed and written
before a fault stays changed and written.
-/

namespace EquationText

/-- A state together with the log so far. -/
structure Traced (σ : Type) where
  state : σ
  log : Array Entry

/-- A computation on a state of type `σ` with a result of type `α`. -/
def Action (σ α : Type) : Type := Traced σ → Except Fault α × Traced σ

namespace Action

variable {σ τ α β : Type}

instance : Monad (Action σ) where
  pure a := fun traced => (.ok a, traced)
  bind first next := fun traced =>
    match first traced with
    | (.ok a, after) => next a after
    | (.error fault, after) => (.error fault, after)

/-- Stops with a fault. -/
def fail (fault : Fault) : Action σ α := fun traced => (.error fault, traced)

/-- Stops with a fault whose line is not known. -/
def failWith (cause : Cause) : Action σ α := fail cause.unplaced

/-- The result of a computation without effects. -/
def ofExcept : Except Cause α → Action σ α
  | .ok a => pure a
  | .error cause => failWith cause

/-- The current state. -/
def get : Action σ σ := fun traced => (.ok traced.state, traced)

/-- Replaces the state. -/
def set (state : σ) : Action σ Unit := fun traced => (.ok (), ⟨state, traced.log⟩)

/-- Changes the state. -/
def modify (change : σ → σ) : Action σ Unit := fun traced =>
  (.ok (), ⟨change traced.state, traced.log⟩)

/-- Writes an entry to the log. -/
def report (level : Level) (source : Source) (message : String) : Action σ Unit := fun traced =>
  (.ok (), ⟨traced.state, traced.log.push ⟨level, source, message⟩⟩)

/-- Runs `afterwards` when an action stops with a fault, and passes on the fault that it makes of
it. -/
def onFault (action : Action σ α) (afterwards : Fault → σ → Fault × σ) : Action σ α := fun traced =>
  match action traced with
  | (.ok a, after) => (.ok a, after)
  | (.error fault, after) =>
    let (changed, state) := afterwards fault after.state
    (.error changed, ⟨state, after.log⟩)

/-- Changes the state at the end of an action, whether it stopped with a fault or not. -/
def andFinally (action : Action σ α) (change : σ → σ) : Action σ α := fun traced =>
  let (result, after) := action traced
  (result, ⟨change after.state, after.log⟩)

/-- An action on a part of the state. -/
def within (part : τ → σ) (replace : σ → τ → τ) (action : Action σ α) : Action τ α := fun traced =>
  let (result, after) := action ⟨part traced.state, traced.log⟩
  (result, ⟨replace after.state traced.state, after.log⟩)

end Action

end EquationText
