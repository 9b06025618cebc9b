import EquationText.Proofs.Document
import EquationText.Proofs.Document.Run
import EquationText.Proofs.Document.Steps
import EquationText.Proofs.Session.Calls
import EquationText.Proofs.Solver.Faults

/-! # How documents use a session

A document that starts without operands asks its engine to solve single equations between expressions and
to carry out commands without operands, is between two statements whenever one is done, and never stops
with a fault that guards against misuse (`EquationText.process_isOrderly`).
-/

namespace EquationText

open Cause (IsExpected IsOrdinary)

variable {σ : Type}

/-- Whether an engine builds trees, and keeps a property of its state as long as it succeeds and stops with
causes of some kind when it does not. -/
structure Engine.IsProper (engine : Engine σ Expr) (S : σ → Prop) (P : Cause → Prop) : Prop where
  trees : engine.BuildsTrees
  ordinary : ∀ cause, cause.IsOrdinary → P cause
  solve : ∀ left right, left.isExpression = true → right.isExpression = true →
    Action.Confines S P (engine.solve (.binary .equation left right))
  command : ∀ name payload, Action.Confines S P (engine.command name payload)
  translate : ∀ state reference, S state →
    StopsWith (fun cause => P cause ∧ cause.isReported = false) (engine.translate state reference)

theorem linearEngine_isProper_of_guards {settings : Settings} {S : Solver → Prop} {P : Cause → Prop}
    (guards : Solver.Guards settings S P) (ordinary : ∀ cause, cause.IsOrdinary → P cause) :
    (linearEngine settings).IsProper S P where
  trees := linearEngine_buildsTrees settings
  ordinary := ordinary
  solve _ _ := Solver.solve_confines guards
  command := Solver.command_confines guards
  translate _ reference holds cause error := by
    obtain ⟨fault, rfl⟩ := Style.digits_error (Solver.translate_error error)
    exact ⟨Solver.translate_stopsWith guards holds reference _ error, rfl⟩

theorem linearEngine_isProper (settings : Settings) :
    (linearEngine settings).IsProper (fun _ => True) IsExpected :=
  linearEngine_isProper_of_guards (Solver.guards_expected settings) fun _ ordinary => ordinary.isExpected

/-- Whether a call is one that is due: an equation with no equation below its root is solved when nothing
but it is on the stack, and a command is carried out when nothing is. -/
def EngineCall.IsDue : EngineCall σ Expr → Prop
  | solve moment value =>
    moment.state.stack.topFirst = [value] ∧ ∃ left right, value = .binary .equation left right ∧
      ∀ part ∈ left.subtrees ++ right.subtrees, part.isEquation = false
  | command moment _ _ => moment.state.stack = .empty

/-- Whether a run ends between two statements, unless with a fault that is not reported, and with no fault
that guards against misuse. -/
structure IsOrderly {ν : Type} (result : Except Fault Unit × Traced (Session σ ν)) : Prop where
  ready : (∀ fault, result.1 = .error fault → fault.cause.isReported = true) → result.2.state.IsReady
  expected : ∀ fault, result.1 = .error fault → fault.cause.IsExpected

namespace IsOrderly

variable {ν : Type} {after : Traced (Session σ ν)}

theorem of_ok (ready : after.state.IsReady) : IsOrderly (.ok (), after) where
  ready _ := ready
  expected _ same := by cases same

theorem ready_of_ok (orderly : IsOrderly (.ok (), after)) : after.state.IsReady :=
  orderly.ready fun _ same => by cases same

end IsOrderly

/-- How the run of a statement or a document ends that starts with a property of the engine state: with the
same property, and between two statements unless it stops at a character that cannot be read; any other fault
is of some kind, and has a line if it is a reported one. -/
structure Concludes {ν : Type} (settings : Settings) (text : String) (S : σ → Prop) (P : Cause → Prop)
    (result : Except Fault Unit × Traced (Session σ ν)) : Prop where
  kept : S result.2.state.engine
  ok : result.1 = .ok () → result.2.state.IsReady
  error : ∀ fault, result.1 = .error fault →
    fault = Cause.unreadableCharacter.unplaced ∧ HasUnreadable settings text ∨
      P fault.cause ∧ result.2.state.IsReady ∧
        (fault.cause.isReported = true → fault.line.isSome = true)

namespace Concludes

variable {ν : Type} {settings : Settings} {text : String} {S : σ → Prop} {P : Cause → Prop}
  {after : Traced (Session σ ν)} {fault : Fault} {result : Except Fault Unit × Traced (Session σ ν)}

theorem of_ok (ready : after.state.IsReady) (holds : S after.state.engine) :
    Concludes settings text S P (.ok (), after) where
  kept := holds
  ok _ := ready
  error _ same := by cases same

theorem of_unreadable (has : HasUnreadable settings text) (holds : S after.state.engine) :
    Concludes settings text S P (.error Cause.unreadableCharacter.unplaced, after) where
  kept := holds
  ok same := by cases same
  error _ same := by
    cases same
    exact .inl ⟨rfl, has⟩

theorem of_error (kind : P fault.cause) (ready : after.state.IsReady) (holds : S after.state.engine)
    (placed : fault.cause.isReported = true → fault.line.isSome = true) :
    Concludes settings text S P (.error fault, after) where
  kept := holds
  ok same := by cases same
  error _ same := by
    cases same
    exact .inr ⟨kind, ready, placed⟩

/-- A run that ends so is orderly. -/
theorem isOrderly (concludes : Concludes settings text S IsExpected result) : IsOrderly result where
  ready reported := by
    rcases same : result.1 with fault | _
    · rcases concludes.error fault same with ⟨rfl, _⟩ | ⟨_, ready, _⟩
      · cases reported _ same
      · exact ready
    · exact concludes.ok same
  expected fault same := by
    rcases concludes.error fault same with ⟨rfl, _⟩ | ⟨expected, _⟩
    · rfl
    · exact expected

end Concludes

theorem Fault.cause_placedAt (fault : Fault) (line : Nat) :
    (fault.placedAt line).cause = fault.cause := by
  unfold Fault.placedAt
  split <;> rfl

theorem Fault.isSome_line_placedAt {fault : Fault} (reported : fault.cause.isReported = true) (line : Nat) :
    (fault.placedAt line).line.isSome = true := by
  rw [Fault.placedAt, if_pos reported]
  rfl

namespace Engine

variable {engine : Engine σ Expr} {before : Traced (Session σ Expr)} {levels line : Nat} {step : Step}
  {steps : List Step} {settings : Settings} {text : String} {S : σ → Prop} {P : Cause → Prop}

theorem countSolved_confines {ν : Type} (bindings : List Binding) :
    Action.Confines (fun session => S session.engine) P
      (countSolved bindings : Action (Session σ ν) (List Binding)) := by
  refine .bind (.of_modify fun _ holds => holds) fun _ => .bind .of_get fun session => ?_
  split
  · exact .bind (.of_report _ _ _) fun _ => .of_pure _
  · exact .of_pure _

/-- An action that ends with closing the statement ends between two statements. -/
theorem isReady_of_andFinally_reset {ν α : Type} {action : Action (Session σ ν) α}
    {before after : Traced (Session σ ν)} {outcome : Except Fault α}
    (run : action.andFinally Session.reset before = (outcome, after)) : after.state.IsReady := by
  have closed : after.state = ((action before).2.state).reset :=
    congrArg (fun result => result.2.state) run.symm
  rw [closed]
  exact Session.reset_isReady _

/-- Handing an equation over ends as solving it does, between two statements. -/
theorem finishEquation_ends {ν : Type} {engine : Engine σ ν} {built after : Traced (Session σ ν)}
    {value : ν} {outcome : Except Fault (List Binding)}
    (run : engine.finishEquation built = (outcome, after)) (result : built.state.result? = some value)
    (last : built.state.lastOperator = some .equation) (holds : S built.state.engine)
    (solved : Action.Confines S P (engine.solve value)) :
    after.state.IsReady ∧ S after.state.engine ∧ ∀ fault, outcome = .error fault → P fault.cause := by
  have submitted : Action.Confines (fun session => S session.engine) P
      (Session.onEngine (engine.solve value) >>= countSolved : Action (Session σ ν) (List Binding)) :=
    .bind (solved.within (fun _ holds => holds) fun _ _ _ holds => holds) countSolved_confines
  have finished : Action.Confines (fun session => S session.engine) P
      ((Session.onEngine (engine.solve value) >>=
        countSolved : Action (Session σ ν) (List Binding)).andFinally Session.reset) :=
    submitted.andFinally fun _ holds => holds
  have same : engine.finishEquation built =
      (Session.onEngine (engine.solve value) >>= countSolved).andFinally Session.reset
        ⟨{ built.state with phase := .equation }, built.log⟩ := by
    simp only [finishEquation, Action.andFinally, submitEquation_of_result result last]
  rw [same] at run
  have ends := finished ⟨{ built.state with phase := .equation }, built.log⟩ holds
  rw [run] at ends
  exact ⟨isReady_of_andFinally_reset run, ends⟩

/-- Carrying a command out stops as the engine does. -/
theorem dispatchCommand_confines {ν : Type} {engine : Engine σ ν} {name payload : String}
    (answered : Action.Confines S P (engine.command name payload)) :
    Action.Confines (fun session => S session.engine) P (engine.dispatchCommand name payload) := by
  have submitted : Action.Confines (fun session => S session.engine) P (engine.submitCommand name payload) :=
    .bind (.of_modify fun _ holds => holds) fun _ => .bind (.of_report _ _ _) fun _ =>
      .bind (answered.within (fun _ holds => holds) fun _ _ _ holds => holds) fun _ =>
        .of_modify fun _ holds => holds
  exact submitted.andFinally fun _ holds => holds

variable (proper : engine.IsProper S P)
include proper

/-- A statement concludes if it does so but for placing its fault and closing it. -/
theorem inStatement_concludes {action : Action (Session σ Expr) Unit}
    (ok : ∀ after, action before = (.ok (), after) → after.state.IsReady ∧ S after.state.engine)
    (error : ∀ fault after, action before = (.error fault, after) → S after.state.engine ∧
      (ReadingStops settings text fault ∨
        P fault.cause ∧ (fault.cause.isReported = true ∨ after.state.IsReady))) :
    Concludes settings text S P (inStatement line action before) := by
  rcases run : action before with ⟨fault | _, after⟩
  · obtain ⟨kept, stops⟩ := error fault after run
    have kind : fault = Cause.unreadableCharacter.unplaced ∧ HasUnreadable settings text ∨
        P fault.cause ∧ (fault.cause.isReported = true ∨ after.state.IsReady) := by
      rcases stops with (has | @⟨_, _, ordinary, reported⟩) | kind
      · exact .inl ⟨rfl, has⟩
      · exact .inr ⟨proper.ordinary _ ordinary, .inl reported⟩
      · exact .inr kind
    cases reported : fault.cause.isReported with
    | true =>
        rw [run_inStatement_of_reported run reported]
        rcases kind with ⟨rfl, _⟩ | ⟨kind, _⟩
        · cases reported
        · exact .of_error (by rwa [Fault.cause_placedAt]) (Session.reset_isReady _) kept fun _ =>
            Fault.isSome_line_placedAt reported line
    | false =>
        rw [run_inStatement_of_not_reported run reported]
        rcases kind with ⟨rfl, has⟩ | ⟨kind, closed⟩
        · exact .of_unreadable has kept
        · refine .of_error kind (closed.resolve_left ?_) kept ?_ <;> simp [reported]
  · rw [run_inStatement_of_ok run]
    exact .of_ok (ok after run).1 (ok after run).2

variable (ready : before.state.IsReady) (holds : S before.state.engine)
include ready holds

/-- The step of an equation hands its tree over as the only value, if there is room to build it. -/
theorem perform_equation_concludes {word : List Token} {tree : Expr}
    (derives : DerivesEquation levels word tree) :
    Concludes settings text S P (engine.perform (.equation line tree.program) before) ∧
      ∀ call ∈ engine.call? (.equation line tree.program) before, call.IsDue := by
  obtain ⟨session, log⟩ := before
  have wellFormed := derives.isWellFormed
  cases room : engine.hasRoom session.engine (tree.room : Nat) with
  | false =>
      obtain ⟨stack, last, run⟩ := build_of_no_room proper.trees ready wellFormed log room
      rw [perform_equation_of_no_room proper.trees ready wellFormed room, call?, run]
      exact ⟨.of_error (proper.ordinary _ rfl) (Session.reset_isReady _) holds fun _ => rfl,
        fun _ asked => by cases asked⟩
  | true =>
      have run := build_of_room proper.trees ready wellFormed log room
      rw [perform_equation_of_room proper.trees ready wellFormed room, call?, run]
      obtain @⟨_, _, left, right, _, first, second⟩ := derives
      have solved := proper.solve left right first.isExpression second.isExpression
      constructor
      · refine inStatement_concludes proper (fun after finished => ?_) (fun fault after failed => ?_)
        · obtain ⟨bindings, middle, ok, done⟩ := Action.run_bind_eq_ok finished
          cases done
          obtain ⟨closed, kept, _⟩ := finishEquation_ends ok rfl rfl holds solved
          exact ⟨closed, kept⟩
        · rcases Action.run_bind_eq_error failed with error | ⟨_, _, _, done⟩
          · obtain ⟨closed, kept, kind⟩ := finishEquation_ends error rfl rfl holds solved
            exact ⟨kept, .inr ⟨kind fault rfl, .inr closed⟩⟩
          · cases done
      · rintro call asked
        cases asked
        refine ⟨rfl, left, right, rfl, fun part member => ?_⟩
        rcases List.mem_append.mp member with inside | inside
        · exact Expr.isEquation_of_mem_subtrees first.isExpression inside
        · exact Expr.isEquation_of_mem_subtrees second.isExpression inside

/-- A reference to a name is written or stops with a fault that is not reported, and opens no statement. -/
theorem perform_reference_concludes (name : String) :
    Concludes settings text S P (engine.perform (.reference name) before) := by
  have translated : engine.translation name before =
      (match engine.translate before.state.engine name with
        | .ok text => (.ok (text.getD name), before)
        | .error cause => (.error cause.unplaced, before)) := by
    unfold translation
    rw [Action.run_bind_of_ok Action.run_get]
    cases engine.translate before.state.engine name <;> rfl
  change Concludes settings text S P (engine.writeReference name before)
  unfold writeReference
  cases answer : engine.translate before.state.engine name with
  | ok text =>
      rw [answer] at translated
      rw [Action.run_bind_of_ok translated]
      exact .of_ok ⟨ready.empty, ready.idle⟩ holds
  | error cause =>
      rw [answer] at translated
      rw [Action.run_bind_of_error translated]
      obtain ⟨kind, unreported⟩ := proper.translate _ _ holds cause answer
      refine .of_error kind ready holds fun reported => ?_
      rw [Cause.unplaced, unreported] at reported
      cases reported

omit ready in
theorem perform_command_concludes (name payload : String) :
    Concludes settings text S P (engine.perform (.command line name payload) before) := by
  have ends := dispatchCommand_confines (proper.command name payload) before holds
  refine inStatement_concludes proper (fun after ok => ?_) (fun fault after failed => ?_)
  · rw [ok] at ends
    exact ⟨isReady_of_andFinally_reset ok, ends.1⟩
  · rw [failed] at ends
    exact ⟨ends.1, .inr ⟨ends.2 fault rfl, .inr (isReady_of_andFinally_reset failed)⟩⟩

/-- The step of an unfinished statement stops with the fault of the statement, or earlier, where there is no room
for its values. -/
theorem perform_unfinished_concludes {begun : Bool} {values : List Expr} {fault : Fault}
    (wellFormed : ∀ value ∈ values, value.isWellFormed = true) (stops : ReadingStops settings text fault) :
    Concludes settings text S P
      (engine.perform (.unfinished line begun (Expr.programs values) fault) before) := by
  cases begun with
  | false =>
      refine inStatement_concludes proper (fun after done => ?_) (fun found after failed => ?_)
      · cases done
      · cases failed
        exact ⟨holds, .inl stops⟩
  | true =>
      rw [perform_unfinished]
      obtain ⟨outcome, stack, last, run, ends⟩ :=
        build_programs proper.trees ready.idle before.log wellFormed
      refine inStatement_concludes proper (fun after ok => ?_) (fun found after failed => ?_)
      · obtain ⟨_, _, _, done⟩ := Action.run_bind_eq_ok ok
        cases done
      · rcases Action.run_bind_eq_error failed with error | ⟨_, _, built, done⟩
        · cases run.symm.trans error
          rcases ends with same | same
          · cases same
          · cases same
            exact ⟨holds, .inr ⟨proper.ordinary _ rfl, .inl rfl⟩⟩
        · cases done
          cases run.symm.trans built
          exact ⟨holds, .inl stops⟩

/-- Every step of a document concludes, and asks only what is due. -/
theorem perform_concludes (sound : step.IsSound levels (ReadingStops settings text)) :
    Concludes settings text S P (engine.perform step before) ∧
      ∀ call ∈ engine.call? step before, call.IsDue := by
  have nothing : ∀ call ∈ (none : Option (EngineCall σ Expr)), call.IsDue := by simp
  cases step with
  | text raw => exact ⟨.of_ok ⟨ready.empty, ready.idle⟩ holds, nothing⟩
  | reference name => exact ⟨perform_reference_concludes proper ready holds name, nothing⟩
  | equation line program =>
      obtain ⟨word, tree, derives, rfl⟩ := sound
      exact perform_equation_concludes proper ready holds derives
  | command line name payload =>
      refine ⟨perform_command_concludes proper holds name payload, ?_⟩
      rintro call asked
      cases asked
      exact ready.empty
  | unfinished line begun program fault =>
      obtain ⟨stops, values, wellFormed, rfl⟩ := sound
      exact ⟨perform_unfinished_concludes proper ready holds wellFormed stops, nothing⟩
  | halt fault =>
      refine ⟨?_, nothing⟩
      rcases sound with has | @⟨_, _, ordinary, reported⟩
      · exact .of_unreadable has holds
      · exact .of_error (proper.ordinary _ ordinary) ready holds fun _ => rfl

/-- The steps of a document conclude, and ask only what is due. -/
theorem performAll_concludes (sound : ∀ step ∈ steps, step.IsSound levels (ReadingStops settings text)) :
    Concludes settings text S P (engine.performAll steps before) ∧
      ∀ call ∈ engine.calls steps before, call.IsDue := by
  induction steps generalizing before with
  | nil => exact ⟨.of_ok ready holds, by simp [calls]⟩
  | cons step rest ih =>
      obtain ⟨first, later⟩ := List.forall_mem_cons.mp sound
      obtain ⟨concludes, due⟩ := perform_concludes proper ready holds first
      rcases run : engine.perform step before with ⟨fault | _, after⟩
      · rw [run] at concludes
        rw [performAll, Action.run_bind_of_error run, calls, run]
        refine ⟨⟨concludes.kept, fun same => (by cases same), concludes.error⟩, fun call asked => ?_⟩
        exact due call (Option.mem_toList.mp (by simpa using asked))
      · rw [run] at concludes
        obtain ⟨restConcludes, restDue⟩ := ih (concludes.ok rfl) concludes.kept later
        rw [performAll, Action.run_bind_of_ok run, calls, run]
        refine ⟨restConcludes, fun call asked => ?_⟩
        rcases List.mem_append.mp asked with here | there
        · exact due call (Option.mem_toList.mp here)
        · exact restDue call there

omit proper ready holds in
/-- The steps of a document are orderly, and ask only what is due. -/
theorem performAll_isOrderly (proper : engine.IsProper (fun _ => True) IsExpected)
    (ready : before.state.IsReady)
    (sound : ∀ step ∈ steps, step.IsSound levels (ReadingStops settings text)) :
    IsOrderly (engine.performAll steps before) ∧ ∀ call ∈ engine.calls steps before, call.IsDue := by
  obtain ⟨concludes, due⟩ := performAll_concludes proper ready trivial sound
  exact ⟨concludes.isOrderly, due⟩

omit proper ready holds in
/-- The calls of a document are all that it asks: an engine that answers them alike processes it alike. -/
theorem process_answering {ν : Type} {engine : Engine σ ν} {solve : ν → Action σ (List Binding)}
    {command : String → String → Action σ Unit} (settings : Settings) (filename text : String)
    {before : Traced (Session σ ν)}
    (alike : ∀ call ∈ engine.calls (documentSteps settings text) ⟨before.state.forDocument, before.log⟩,
      call.IsAnsweredAlike (engine.answering solve command) engine) :
    (engine.answering solve command).process settings filename text before =
      engine.process settings filename text before := by
  unfold process
  rw [Action.run_bind_of_ok (Action.run_modify _), Action.run_bind_of_ok (Action.run_modify _)]
  exact Action.run_bind_congr (performAll_answering alike)

end Engine

/-- What a document does to a session of the linear engine that holds no operands. Each equation is handed
over when it is the only value on the stack, with no equation below its root, and each command when the
stack is empty, and nothing else is asked: with other answers to other calls the document would be processed in the
same way. After each step that is done the stack is empty and no statement is open, and also at the
end, unless a fault that is not reported escapes; and no fault that guards against misuse arises. -/
theorem process_isOrderly (settings : Settings) (filename text : String)
    {before : Traced SolverSession} (empty : before.state.stack = .empty) :
    let engine := linearEngine settings
    let steps := documentSteps settings text
    let start : Traced SolverSession := ⟨before.state.forDocument, before.log⟩
    (∀ call ∈ engine.calls steps start, call.IsDue) ∧
      (∀ solve command, (∀ call ∈ engine.calls steps start,
          call.IsAnsweredAlike (engine.answering solve command) engine) →
        (engine.answering solve command).process settings filename text before =
          engine.process settings filename text before) ∧
      (∀ done later middle, steps = done ++ later →
        engine.performAll done start = (.ok (), middle) → middle.state.IsReady) ∧
      IsOrderly (engine.process settings filename text before) := by
  intro engine steps start
  have proper := linearEngine_isProper settings
  have ready : start.state.IsReady := ⟨empty, rfl⟩
  have sound := documentSteps_isSound settings text
  obtain ⟨orderly, due⟩ := Engine.performAll_isOrderly proper ready sound
  refine ⟨due, fun solve command alike => Engine.process_answering settings filename text alike,
    fun done later middle whole ok => ?_, ?_⟩
  · have doneSound : ∀ step ∈ done,
        step.IsSound settings.nestingLevels (ReadingStops settings text) := by
      intro step member
      refine sound step ?_
      rw [show documentSteps settings text = steps from rfl, whole]
      exact List.mem_append_left _ member
    have part := (Engine.performAll_isOrderly proper ready doneSound).1
    rw [ok] at part
    exact part.ready_of_ok
  · unfold Engine.process
    rw [Action.run_bind_of_ok (Action.run_modify _)]
    rcases run : engine.performAll steps start with ⟨fault | _, after⟩
    · rw [run] at orderly
      rw [Action.run_bind_of_error run]
      exact ⟨orderly.ready, orderly.expected⟩
    · rw [run] at orderly
      rw [Action.run_bind_of_ok run]
      exact .of_ok orderly.ready_of_ok

/-- A document with two equations, a command between them, and a statement with an open parenthesis. -/
def openParenthesis : String := "\x7b\x7b x + y = 3; @digits 4; x - y = 1; z = (1 \x7d\x7d"

/-- The three calls that the document leads to before its last statement is refused are due, and the
session is between two statements afterwards. -/
theorem process_isOrderly_openParenthesis :
    let start : Traced SolverSession := ⟨freshSession.state.forDocument, freshSession.log⟩
    ((linearEngine {}).calls (documentSteps {} openParenthesis) start).length = 3 ∧
      (∀ call ∈ (linearEngine {}).calls (documentSteps {} openParenthesis) start, call.IsDue) ∧
      ((linearEngine {}).process {} "<string>" openParenthesis freshSession).1 =
        .error ((Cause.reading (.missing ")" "\x7d\x7d")).onLine 1) ∧
      ((linearEngine {}).process {} "<string>" openParenthesis freshSession).2.state.IsReady := by
  intro start
  have refused : ((linearEngine {}).process {} "<string>" openParenthesis freshSession).1 =
      .error ((Cause.reading (.missing ")" "\x7d\x7d")).onLine 1) := by
    decide +kernel
  have empty : freshSession.state.stack = .empty := rfl
  obtain ⟨due, _, _, orderly⟩ := process_isOrderly {} "<string>" openParenthesis empty
  refine ⟨by decide +kernel, due, refused, orderly.ready fun fault same => ?_⟩
  rw [refused] at same
  cases same
  rfl

end EquationText
