import EquationText.Document.Process
import EquationText.Proofs.Action

/-! # Runs of documents

The steps of a document are carried out up to the first that fails
(`EquationText.Engine.performAll_error`). A statement that cannot be read to its end fails without
touching the engine (`EquationText.Engine.perform_refusal_engine`).
-/

namespace EquationText

/-- Whether a step stands for a fault in reading the document. -/
def Step.isRefusal : Step → Bool
  | unfinished _ _ _ _ | halt _ => true
  | text _ | reference _ | equation _ _ | command _ _ _ => false

/-- Whether a property of sessions does not depend on the statement that is being built. -/
def Session.IgnoresOperands {σ ν : Type} (P : Session σ ν → Prop) : Prop :=
  ∀ (session : Session σ ν) stack lastOperator phase, P session →
    P { session with stack, lastOperator, phase }

namespace Engine

variable {σ ν : Type} {engine : Engine σ ν} {before after : Traced (Session σ ν)} {steps : List Step}
  {step : Step} {fault : Fault}

theorem performAll_append (engine : Engine σ ν) (first second : List Step) :
    engine.performAll (first ++ second) =
      (do engine.performAll first; engine.performAll second) := by
  induction first with
  | nil => rfl
  | cons step rest ih => simp only [List.cons_append, performAll, ih, Action.bind_assoc]

/-- A run that fails carries out the steps before one that fails. -/
theorem performAll_error (run : engine.performAll steps before = (.error fault, after)) :
    ∃ done step later middle, steps = done ++ step :: later ∧
      engine.performAll done before = (.ok (), middle) ∧
      engine.perform step middle = (.error fault, after) := by
  induction steps generalizing before with
  | nil => cases run
  | cons step rest ih =>
      rcases Action.run_bind_eq_error run with failed | ⟨_, middle, ok, failed⟩
      · exact ⟨[], step, rest, before, rfl, rfl, failed⟩
      · obtain ⟨done, next, later, last, rfl, doneOk, nextFailed⟩ := ih failed
        exact ⟨step :: done, next, later, last, rfl, (Action.run_bind_of_ok ok).trans doneOk, nextFailed⟩

section Process

variable {settings : Settings} {filename text : String}

/-- What carrying out a document comes to but for the log. -/
theorem process_eq (engine : Engine σ ν) (settings : Settings) (filename text : String)
    (before : Traced (Session σ ν)) :
    (engine.process settings filename text before).1 =
        (engine.performAll (documentSteps settings text) ⟨before.state.forDocument, before.log⟩).1 ∧
      (engine.process settings filename text before).2.state =
        (engine.performAll (documentSteps settings text) ⟨before.state.forDocument, before.log⟩).2.state := by
  unfold process
  rw [Action.run_bind_of_ok (Action.run_modify _)]
  rcases run : engine.performAll (documentSteps settings text) ⟨before.state.forDocument, before.log⟩ with
    ⟨fault | _, last⟩
  · rw [Action.run_bind_of_error run]
    exact ⟨rfl, rfl⟩
  · rw [Action.run_bind_of_ok run]
    exact ⟨rfl, rfl⟩

/-- A document that is accepted has steps that succeed. -/
theorem performAll_of_accepted (accepted : engine.process settings filename text before = (.ok (), after)) :
    ∃ middle, engine.performAll (documentSteps settings text) ⟨before.state.forDocument, before.log⟩ =
      (.ok (), middle) ∧ middle.state = after.state := by
  obtain ⟨result, state⟩ := process_eq engine settings filename text before
  rw [accepted] at result state
  rcases run : engine.performAll (documentSteps settings text) ⟨before.state.forDocument, before.log⟩ with
    ⟨outcome, middle⟩
  rw [run] at result state
  cases result
  exact ⟨middle, rfl, state.symm⟩

/-- A document fails where its steps fail. -/
theorem process_eq_error_iff :
    engine.process settings filename text before = (.error fault, after) ↔
      engine.performAll (documentSteps settings text) ⟨before.state.forDocument, before.log⟩ =
        (.error fault, after) := by
  unfold process
  rw [Action.run_bind_of_ok (Action.run_modify _)]
  rcases run : engine.performAll (documentSteps settings text) ⟨before.state.forDocument, before.log⟩ with
    ⟨found | _, last⟩
  · rw [Action.run_bind_of_error run]
  · rw [Action.run_bind_of_ok run]
    exact ⟨nofun, nofun⟩

end Process

/-! ## Refused statements -/

section Building

variable {P : Session σ ν → Prop}

theorem ensureRoom_keeps (engine : Engine σ ν) (extra : Nat) :
    Action.Keeps P (engine.ensureRoom extra) := by
  refine .bind .of_get fun session => ?_
  split
  · exact .of_pure ()
  · exact .of_failWith _

variable (ignores : Session.IgnoresOperands P)
include ignores

theorem pushOperand_keeps (engine : Engine σ ν) (extra : Nat) (value : ν) :
    Action.Keeps P (engine.pushOperand extra value) :=
  .bind (ensureRoom_keeps engine extra) fun _ => .of_modify fun session holds => ignores session _ _ _ holds

theorem apply_keeps (engine : Engine σ ν) (operator : Operator) :
    Action.Keeps P (engine.apply operator) := by
  refine .bind (ensureRoom_keeps engine 1) fun _ => .bind_get fun session holds => ?_
  split
  · exact .of_failWith _
  · refine .bind (.of_ofExcept _) fun popped => .bind (.of_ofExcept _) fun value => ?_
    exact .of_set (ignores session _ _ _ holds)

/-- Building touches nothing but the operands. -/
theorem executeAll_keeps (engine : Engine σ ν) (program : List Instruction) :
    Action.Keeps P (engine.executeAll program) := by
  induction program with
  | nil => exact .of_pure ()
  | cons instruction rest ih =>
      refine .bind ?_ fun _ => ih
      cases instruction with
      | named name => exact pushOperand_keeps ignores engine 2 _
      | anonymous => exact pushOperand_keeps ignores engine 1 _
      | number value => exact pushOperand_keeps ignores engine 2 _
      | apply operator => exact apply_keeps ignores engine operator

theorem begin_keeps : Action.Keeps P Session.begin := by
  refine .bind_get fun session holds => ?_
  split
  · exact .of_set (ignores session _ _ _ holds)
  · exact .of_failWith _

theorem inStatement_keeps {α : Type} {action : Action (Session σ ν) α} (line : Nat)
    (keeps : Action.Keeps P action) : Action.Keeps P (inStatement line action) := by
  refine keeps.onFault fun fault session holds => ?_
  split
  · exact ignores session _ _ _ holds
  · exact holds

/-- A statement that cannot be read to its end touches nothing but the operands. -/
theorem perform_refusal_keeps (engine : Engine σ ν) (refusal : step.isRefusal = true) :
    Action.Keeps P (engine.perform step) := by
  have statement : ∀ (begun : Bool) program fault,
      Action.Keeps P (do
        if begun then
          Session.begin
          engine.executeAll program
        Action.fail fault : Action (Session σ ν) Unit) := by
    intro begun program fault
    cases begun with
    | false => exact .of_fail fault
    | true =>
        exact .bind (begin_keeps ignores) fun _ =>
          .bind (executeAll_keeps ignores engine program) fun _ => .of_fail fault
  cases step with
  | unfinished line begun program fault =>
      exact inStatement_keeps ignores line (statement begun program fault)
  | halt fault => exact .of_fail fault
  | _ => cases refusal

end Building

/-- A refused statement has no effect on the engine. -/
theorem perform_refusal_engine (engine : Engine σ ν) (refusal : step.isRefusal = true)
    (before : Traced (Session σ ν)) :
    (engine.perform step before).2.state.engine = before.state.engine :=
  perform_refusal_keeps (P := fun session => session.engine = before.state.engine) (fun _ _ _ _ same => same)
    engine refusal before rfl

end Engine

end EquationText
