import EquationText.Proofs.Session.Equation

/-! # What is asked of an engine

The calls of a run are the equations and commands that it hands to its engine, each with the session at
that moment (`EquationText.Engine.calls`). They are all that matters of how an engine solves and
carries out commands: engines that build alike and answer the calls of a run alike run alike
(`EquationText.Engine.performAll_answering`).
-/

namespace EquationText

/-- Something asked of an engine, and the session in which it is asked. -/
inductive EngineCall (σ ν : Type)
  /-- To solve an equation. -/
  | solve (moment : Traced (Session σ ν)) (value : ν)
  /-- To carry out a command. -/
  | command (moment : Traced (Session σ ν)) (name payload : String)

variable {σ ν : Type}

/-- Whether two engines answer a call alike. -/
def EngineCall.IsAnsweredAlike (first second : Engine σ ν) : EngineCall σ ν → Prop
  | solve moment value =>
    first.solve value ⟨moment.state.engine, moment.log⟩ =
      second.solve value ⟨moment.state.engine, moment.log⟩
  | command moment name payload =>
    first.command name payload ⟨moment.state.engine, moment.log⟩ =
      second.command name payload ⟨moment.state.engine, moment.log⟩

namespace Engine

variable (engine : Engine σ ν)

/-- The call to solve the equation that was built. -/
def solveCall? (built : Traced (Session σ ν)) : Option (EngineCall σ ν) :=
  match built.state.result?, built.state.lastOperator with
  | some value, some .equation => some (.solve ⟨{ built.state with phase := .equation }, built.log⟩ value)
  | _, _ => none

/-- The call to carry out a command. -/
def commandCall (name payload : String) (before : Traced (Session σ ν)) : EngineCall σ ν :=
  .command ⟨{ before.state with phase := .command },
    before.log.push ⟨.debug, .dispatcher, s!"command {name} {quoted payload}"⟩⟩ name payload

/-- What a step asks of the engine. -/
def call? (step : Step) (before : Traced (Session σ ν)) : Option (EngineCall σ ν) :=
  match step with
  | .equation _ program =>
    match engine.build program before with
    | (.ok (), built) => solveCall? built
    | (.error _, _) => none
  | .command _ name payload => some (commandCall name payload before)
  | .text _ | .reference _ | .unfinished _ _ _ _ | .halt _ => none

/-- What the steps of a document ask of the engine, up to the first that fails. -/
def calls : List Step → Traced (Session σ ν) → List (EngineCall σ ν)
  | [], _ => []
  | step :: rest, before =>
    (engine.call? step before).toList ++
      match engine.perform step before with
      | (.ok (), after) => calls rest after
      | (.error _, _) => []

/-! ## Submitting -/

/-- Counts a solved equation and reports what it determined. -/
def countSolved (bindings : List Binding) : Action (Session σ ν) (List Binding) := do
  Action.modify fun session => { session with statements := session.statements + 1 }
  let session ← Action.get
  if !bindings.isEmpty then
    Action.report .debug .dispatcher
      s!"statement {session.statements} bound {quotedBindings bindings}"
  return bindings

variable {engine}

theorem submitEquation_of_result {built : Traced (Session σ ν)} {value : ν}
    (result : built.state.result? = some value) (last : built.state.lastOperator = some .equation) :
    engine.submitEquation built =
      (Session.onEngine (engine.solve value) >>= countSolved)
        ⟨{ built.state with phase := .equation }, built.log⟩ := by
  obtain ⟨⟨state, stack, lastOperator, phase, statements, output⟩, log⟩ := built
  cases last
  unfold submitEquation
  rw [Action.run_bind_of_ok Action.run_get, result]
  rfl

/-- Without an equation as the only value no call is made, and the session stays as it is. -/
theorem submitEquation_of_no_result {built : Traced (Session σ ν)}
    (malformed : ¬ ∃ value, built.state.result? = some value ∧
      built.state.lastOperator = some .equation) :
    engine.submitEquation built = (.error (Cause.reading .malformedStatement).unplaced, built) := by
  unfold submitEquation
  rw [Action.run_bind_of_ok Action.run_get]
  rcases result : built.state.result? with _ | value
  · rfl
  · rcases last : built.state.lastOperator with _ | operator
    · rfl
    · cases operator with
      | equation => exact (malformed ⟨value, result, last⟩).elim
      | _ => rfl

/-! ## Engines that answer alike -/

/-- An engine with other ways to solve and to carry out commands. -/
def answering (engine : Engine σ ν) (solve : ν → Action σ (List Binding))
    (command : String → String → Action σ Unit) : Engine σ ν :=
  { engine with solve, command }

variable {solve : ν → Action σ (List Binding)} {command : String → String → Action σ Unit}

theorem executeAll_answering (program : List Instruction) :
    (engine.answering solve command).executeAll program = engine.executeAll program := by
  induction program with
  | nil => rfl
  | cons instruction rest ih =>
      have same : (engine.answering solve command).execute instruction = engine.execute instruction := by
        cases instruction <;> rfl
      rw [executeAll, executeAll, same, ih]

theorem build_answering (program : List Instruction) :
    (engine.answering solve command).build program = engine.build program := by
  rw [build, executeAll_answering]
  rfl

theorem onEngine_congr {α : Type} {first second : Action σ α} {session : Session σ ν}
    {log : Array Entry} (same : first ⟨session.engine, log⟩ = second ⟨session.engine, log⟩) :
    Session.onEngine first ⟨session, log⟩ = Session.onEngine second ⟨session, log⟩ := by
  simp only [Session.onEngine, Action.within, same]

/-- The end of a statement depends on the engine through its call only. -/
theorem finishEquation_answering {built : Traced (Session σ ν)}
    (alike : ∀ call ∈ solveCall? built,
      call.IsAnsweredAlike (engine.answering solve command) engine) :
    (engine.answering solve command).finishEquation built = engine.finishEquation built := by
  have same : (engine.answering solve command).submitEquation built = engine.submitEquation built := by
    by_cases ready : ∃ value, built.state.result? = some value ∧
        built.state.lastOperator = some .equation
    · obtain ⟨value, result, last⟩ := ready
      rw [submitEquation_of_result result last, submitEquation_of_result result last]
      have asked := alike (.solve ⟨{ built.state with phase := .equation }, built.log⟩ value) (by
        rw [solveCall?, result, last]
        rfl)
      exact Action.run_bind_congr (onEngine_congr asked)
    · rw [submitEquation_of_no_result ready, submitEquation_of_no_result ready]
  simp only [finishEquation, Action.andFinally, same]

theorem dispatchCommand_answering {name payload : String} {before : Traced (Session σ ν)}
    (alike : (commandCall name payload before).IsAnsweredAlike
      (engine.answering solve command) engine) :
    (engine.answering solve command).dispatchCommand name payload before =
      engine.dispatchCommand name payload before := by
  have same : (engine.answering solve command).submitCommand name payload before =
      engine.submitCommand name payload before := by
    unfold submitCommand
    rw [Action.run_bind_of_ok (Action.run_modify _), Action.run_bind_of_ok (Action.run_report ..),
      Action.run_bind_of_ok (Action.run_modify _), Action.run_bind_of_ok (Action.run_report ..)]
    exact Action.run_bind_congr (onEngine_congr alike)
  simp only [dispatchCommand, Action.andFinally, same]

/-- A step depends on the engine through its call only. -/
theorem perform_answering {step : Step} {before : Traced (Session σ ν)}
    (alike : ∀ call ∈ engine.call? step before,
      call.IsAnsweredAlike (engine.answering solve command) engine) :
    (engine.answering solve command).perform step before = engine.perform step before := by
  cases step with
  | text raw => rfl
  | reference name => rfl
  | halt fault => rfl
  | equation line program =>
      rw [perform_equation, perform_equation, build_answering]
      refine run_inStatement_congr ?_
      rcases run : engine.build program before with ⟨fault | _, built⟩
      · rw [Action.run_bind_of_error run, Action.run_bind_of_error run]
      rw [Action.run_bind_of_ok run, Action.run_bind_of_ok run]
      simp only [call?, run] at alike
      exact Action.run_bind_congr (finishEquation_answering alike)
  | command line name payload =>
      exact run_inStatement_congr (dispatchCommand_answering (alike _ rfl))
  | unfinished line begun program fault =>
      simp only [perform, executeAll_answering]

/-- Engines that build alike and answer the calls of a run alike run alike. -/
theorem performAll_answering {steps : List Step} {before : Traced (Session σ ν)}
    (alike : ∀ call ∈ engine.calls steps before,
      call.IsAnsweredAlike (engine.answering solve command) engine) :
    (engine.answering solve command).performAll steps before = engine.performAll steps before := by
  induction steps generalizing before with
  | nil => rfl
  | cons step rest ih =>
      have here : ∀ call ∈ engine.call? step before,
          call.IsAnsweredAlike (engine.answering solve command) engine := fun call asked =>
        alike call (List.mem_append_left _ (Option.mem_toList.mpr asked))
      have first := perform_answering here
      rcases run : engine.perform step before with ⟨fault | _, after⟩
      · rw [run] at first
        exact (Action.run_bind_of_error first).trans (Action.run_bind_of_error run).symm
      · rw [run] at first
        have there : ∀ call ∈ engine.calls rest after,
            call.IsAnsweredAlike (engine.answering solve command) engine := fun call asked =>
          alike call (List.mem_append_right _ (by simpa only [run] using asked))
        have later := ih there
        rw [performAll, performAll, Action.run_bind_of_ok first, Action.run_bind_of_ok run]
        exact later

end Engine

end EquationText
