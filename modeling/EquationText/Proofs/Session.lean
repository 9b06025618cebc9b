import EquationText.Document.Process
import EquationText.Proofs.Action
import EquationText.Proofs.Grammar.Names
import EquationText.Proofs.Stack

/-! # What a session keeps

An engine keeps a property of its state from equation to equation if the operand values it is given
have one of their own (`EquationText.Engine.Maintains`). A session then keeps both, whatever the steps
of a document that it carries out, as long as these succeed
(`EquationText.Engine.performAll_yields`).
-/

namespace EquationText

variable {σ ν : Type}

/-- What an engine keeps: the property `kept` of its state and the property `valid` of operand values,
when the names it is given are allowed. -/
structure Engine.Maintains (engine : Engine σ ν) (allows : String → Prop) (kept : σ → Prop)
    (valid : ν → Prop) : Prop where
  named : ∀ name, allows name → valid (engine.named name)
  anonymous : valid engine.anonymous
  number : ∀ value, valid (engine.number value)
  construct : ∀ operator operands value, (∀ operand ∈ operands, valid operand) →
    engine.construct operator operands = .ok value → valid value
  solve : ∀ value, valid value → Action.Yields kept (fun _ => True) (engine.solve value)
  command : ∀ name payload, Action.Yields kept (fun _ => True) (engine.command name payload)

namespace Session

/-- Whether the engine of a session and the values on its stack have some properties. -/
def Satisfies (kept : σ → Prop) (valid : ν → Prop) (session : Session σ ν) : Prop :=
  kept session.engine ∧ ∀ value ∈ session.stack.topFirst, valid value

variable {kept : σ → Prop} {valid : ν → Prop}

theorem satisfies_start {engine : σ} (holds : kept engine) (valid : ν → Prop) :
    (start engine : Session σ ν).Satisfies kept valid :=
  ⟨holds, List.forall_mem_nil _⟩

theorem satisfies_reset (session : Session σ ν) (holds : session.Satisfies kept valid) :
    session.reset.Satisfies kept valid :=
  ⟨holds.1, List.forall_mem_nil _⟩

theorem mem_of_result?_eq_some {session : Session σ ν} {value : ν}
    (result : session.result? = some value) : value ∈ session.stack.topFirst := by
  unfold result? at result
  split at result
  · rename_i stack
    cases result
    rw [stack]
    exact List.mem_singleton_self _
  · cases result

/-- Whether an action of a session keeps what the engine keeps, when it succeeds. -/
abbrev Preserves {α : Type} (kept : σ → Prop) (valid : ν → Prop)
    (action : Action (Session σ ν) α) : Prop :=
  Action.Yields (Satisfies kept valid) (fun _ => True) action

theorem onEngine_yields {α : Type} {action : Action σ α}
    (yields : Action.Yields kept (fun _ => True) action) :
    Preserves kept valid (onEngine action) :=
  yields.within (fun _ holds => holds.1) fun _ _ holds engine => ⟨engine, holds.2⟩

theorem writeText_yields (raw : String) : Preserves kept valid (writeText raw) :=
  .of_modify fun _ holds => holds

theorem begin_yields : Preserves kept valid begin := by
  apply Action.Yields.bind .of_get
  intro session holds
  split
  · exact .of_set holds
  · exact .of_failWith _

end Session

namespace Engine

open Session (Preserves)

variable {engine : Engine σ ν} {allows : String → Prop} {kept : σ → Prop} {valid : ν → Prop}

/-! ## Building -/

theorem ensureRoom_yields (extra : Nat) : Preserves kept valid (engine.ensureRoom extra) := by
  apply Action.Yields.bind .of_get
  intro session _
  split
  · exact .of_pure trivial
  · exact .of_failWith _

theorem pushOperand_yields (extra : Nat) {value : ν} (pushed : valid value) :
    Preserves kept valid (engine.pushOperand extra value) := by
  apply Action.Yields.bind (ensureRoom_yields extra)
  intro _ _
  apply Action.Yields.of_modify
  intro session holds
  exact ⟨holds.1, List.forall_mem_cons.mpr ⟨pushed, holds.2⟩⟩

variable (maintains : engine.Maintains allows kept valid)
include maintains

/-- What an operator builds is valid where its operands are, and takes their place. -/
theorem apply_yields (operator : Operator) : Preserves kept valid (engine.apply operator) := by
  apply Action.Yields.bind (ensureRoom_yields 1)
  intro _ _
  apply Action.Yields.bind .of_get
  intro session holds
  split
  · exact .of_failWith _
  · have split : ∀ popped, session.stack.pop operator.arity = .ok popped →
        ∀ value, value ∈ popped.1 ∨ value ∈ popped.2.topFirst → valid value :=
      fun popped ok value member => holds.2 value (OperandStack.mem_of_pop ok member)
    apply Action.Yields.bind (.of_ofExcept split)
    rintro ⟨operands, stack⟩ popped
    have built : ∀ value, engine.construct operator operands = .ok value → valid value :=
      fun value ok => maintains.construct operator operands value
        (fun operand member => popped operand (.inl member)) ok
    apply Action.Yields.bind (.of_ofExcept built)
    intro value top
    have rest : ∀ value ∈ stack.topFirst, valid value := fun value member =>
      popped value (.inr member)
    exact .of_set ⟨holds.1, List.forall_mem_cons.mpr ⟨top, rest⟩⟩

theorem execute_yields {instruction : Instruction}
    (allowed : ∀ name, instruction = .named name → allows name) :
    Preserves kept valid (engine.execute instruction) := by
  cases instruction with
  | named name => exact pushOperand_yields 2 (maintains.named name (allowed name rfl))
  | anonymous => exact pushOperand_yields 1 maintains.anonymous
  | number value => exact pushOperand_yields 2 (maintains.number value)
  | apply operator => exact apply_yields maintains operator

theorem executeAll_yields {program : List Instruction} (allowed : ProgramAllowed allows program) :
    Preserves kept valid (engine.executeAll program) := by
  induction program with
  | nil => exact .of_pure trivial
  | cons instruction rest ih =>
      have first : ∀ name, instruction = .named name → allows name := by
        rintro name rfl
        exact allowed name (List.mem_cons_self ..)
      apply Action.Yields.bind (execute_yields maintains first)
      intro _ _
      exact ih fun name member => allowed name (List.mem_cons_of_mem _ member)

/-! ## Statements -/

/-- Handing over an equation keeps the property of the engine: the only value on the stack is a valid one. -/
theorem submitEquation_yields : Preserves kept valid engine.submitEquation := by
  apply Action.Yields.bind .of_get
  intro session holds
  split
  · rename_i value result _
    have top : valid value := holds.2 value (Session.mem_of_result?_eq_some result)
    apply Action.Yields.bind (.of_set ⟨holds.1, holds.2⟩)
    intro _ _
    apply Action.Yields.bind (Session.onEngine_yields (maintains.solve value top))
    intro bindings _
    refine .bind (.of_modify fun _ after => after) fun _ _ => ?_
    apply Action.Yields.bind .of_get
    intro counted _
    split
    · apply Action.Yields.bind (.of_report _ _ _)
      intro _ _
      exact .of_pure trivial
    · exact .of_pure trivial
  · exact .of_failWith _

theorem finishEquation_yields : Preserves kept valid engine.finishEquation :=
  (submitEquation_yields maintains).andFinally Session.satisfies_reset

theorem dispatchCommand_yields (name payload : String) :
    Preserves kept valid (engine.dispatchCommand name payload) := by
  have submitted : Preserves kept valid (engine.submitCommand name payload) := by
    refine .bind (.of_modify fun _ holds => holds) fun _ _ => ?_
    apply Action.Yields.bind (.of_report _ _ _)
    intro _ _
    apply Action.Yields.bind (Session.onEngine_yields (maintains.command name payload))
    intro _ _
    exact .of_modify fun _ holds => holds
  exact submitted.andFinally Session.satisfies_reset

/-! ## Documents -/

omit maintains in
theorem writeReference_yields (name : String) :
    Preserves kept valid (engine.writeReference name) := by
  have translated : Preserves kept valid (engine.translation name) := by
    apply Action.Yields.bind .of_get
    intro session _
    apply Action.Yields.bind (.of_ofExcept fun _ _ => trivial)
    intro text _
    exact .of_pure trivial
  apply Action.Yields.bind translated
  intro text _
  exact Session.writeText_yields text

omit maintains in
theorem inStatement_yields {α : Type} {action : Action (Session σ ν) α} (line : Nat)
    (yields : Preserves kept valid action) : Preserves kept valid (inStatement line action) :=
  yields.onFault _

/-- Each kind of step keeps the property of the session, if the names of the step are allowed. -/
theorem perform_yields {step : Step} (allowed : step.NamesAllowed allows) :
    Preserves kept valid (engine.perform step) := by
  cases step with
  | text raw => exact Session.writeText_yields raw
  | reference name => exact writeReference_yields name
  | equation line program =>
      apply inStatement_yields line
      apply Action.Yields.bind Session.begin_yields
      intro _ _
      apply Action.Yields.bind (executeAll_yields maintains allowed)
      intro _ _
      apply Action.Yields.bind (finishEquation_yields maintains)
      intro _ _
      exact .of_pure trivial
  | command line name payload => exact inStatement_yields line (dispatchCommand_yields maintains name payload)
  | unfinished line begun program fault =>
      apply inStatement_yields line
      split
      · apply Action.Yields.bind Session.begin_yields
        intro _ _
        apply Action.Yields.bind (executeAll_yields maintains allowed)
        intro _ _
        exact .of_fail fault
      · exact .of_fail fault
  | halt fault => exact .of_fail fault

/-- A document keeps what the engine keeps, as far as it succeeds. -/
theorem performAll_yields {steps : List Step} (allowed : StepsAllowed allows steps) :
    Preserves kept valid (engine.performAll steps) := by
  induction steps with
  | nil => exact .of_pure trivial
  | cons step rest ih =>
      have first : step.NamesAllowed allows := allowed step (List.mem_cons_self ..)
      apply Action.Yields.bind (perform_yields maintains first)
      intro _ _
      exact ih fun later member => allowed later (List.mem_cons_of_mem _ member)

end Engine

end EquationText
