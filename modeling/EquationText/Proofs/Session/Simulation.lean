import EquationText.Proofs.Action.Comparison
import EquationText.Proofs.Document.Composition
import EquationText.Proofs.Session.Calls
import Mathlib.Data.List.Forall2

/-! # Two engines at the same steps

The sessions of two engines go along with each other when their values, their room and their answers do:
they carry out the same steps alike (`EquationText.Engine.performAll_simulates`). Values are never looked
into, and an operator gets them in the order in which they were pushed.
-/

namespace EquationText

variable {σ τ ν μ : Type}

/-- How the sessions of two engines are compared: by the states of the engines and by the operands. The
first session may be at a place further down in its document, after some earlier output and statements. -/
structure Simulation (σ τ ν μ : Type) where
  engines : Comparison σ τ
  values : ν → μ → Prop
  /-- Whether references are replaced by the same texts. -/
  sameTexts : Bool
  /-- What the first session has written before. -/
  earlier : String
  /-- How many more statements the first session has carried out. -/
  ahead : Int
  /-- How many lines further down the first session is. -/
  lines : Nat

namespace Simulation

/-- Whether two sessions are at the same place. -/
structure Matches (S : Simulation σ τ ν μ) (session : Session σ ν) (other : Session τ μ) : Prop where
  engine : S.engines.states session.engine other.engine
  stack : List.Forall₂ S.values session.stack.topFirst other.stack.topFirst
  lastOperator : session.lastOperator = other.lastOperator
  phase : session.phase = other.phase
  statements : (session.statements : Int) = other.statements + S.ahead
  output : S.sameTexts = true → session.output = S.earlier ++ other.output

/-- The comparison of the two sessions. -/
def sessions (S : Simulation σ τ ν μ) : Comparison (Session σ ν) (Session τ μ) where
  states := S.Matches
  faults fault found := fault = found.movedDown S.lines
  left := S.engines.left
  right := S.engines.right

/-- Whether actions of the two sessions end alike from sessions that match. -/
abbrev EndsAlike (S : Simulation σ τ ν μ) {α β : Type} (first : Action (Session σ ν) α)
    (second : Action (Session τ μ) β) : Prop :=
  S.sessions.Relates (fun _ _ => True) first second

end Simulation

/-- Whether two engines build related values and answer alike from states that are compared. The first one
may have less room, if a full stack may stop it alone. -/
structure Engine.Simulates (first : Engine σ ν) (second : Engine τ μ) (S : Simulation σ τ ν μ) : Prop where
  hasRoom : ∀ state other wanted, S.engines.states state other →
    first.hasRoom state wanted = second.hasRoom other wanted ∨
      first.hasRoom state wanted = false ∧ S.engines.left Cause.stackFull.unplaced
  named : ∀ name, S.values (first.named name) (second.named name)
  anonymous : S.values first.anonymous second.anonymous
  number : ∀ value, S.values (first.number value) (second.number value)
  construct : ∀ (operator : Operator) operands others, operands.length = operator.arity →
    List.Forall₂ S.values operands others →
      S.sessions.Alike S.values (first.construct operator operands) (second.construct operator others)
  solve : ∀ value other, S.values value other →
    S.engines.Relates (fun _ _ => True) (first.solve value) (second.solve other)
  translate : ∀ state other reference, S.engines.states state other →
    S.engines.Alike (fun text found => S.sameTexts = true → text = found)
      (first.translate state reference) (second.translate other reference)
  faults : ∀ fault found, S.engines.faults fault found → fault = found ∧ fault.line = none
  left : ∀ fault line, S.engines.left fault → S.engines.left (fault.placedAt line)
  right : ∀ fault line, S.engines.right fault → S.engines.right (fault.placedAt line)

/-- Whether two engines carry out a step alike if it is a command. -/
def Step.IsAnsweredAlike (first : Engine σ ν) (second : Engine τ μ) (S : Simulation σ τ ν μ) :
    Step → Prop
  | command _ name payload =>
    S.engines.Relates (fun _ _ => True) (first.command name payload) (second.command name payload)
  | _ => True

theorem Fault.movedDown_of_unplaced {fault : Fault} (unplaced : fault.line = none) (lines : Nat) :
    fault.movedDown lines = fault := by
  obtain ⟨cause, _ | line⟩ := fault
  · rfl
  · cases unplaced

theorem Fault.placedAt_movedDown (fault : Fault) (line lines : Nat) :
    (fault.movedDown lines).placedAt (line + lines) = (fault.placedAt line).movedDown lines := by
  obtain ⟨cause, _ | found⟩ := fault <;> cases reported : cause.isReported <;>
    simp [placedAt, movedDown, reported]

/-- Whether two stacks gave the same number of related values and are left with related ones. -/
def OperandStack.ArePopped (values : ν → μ → Prop) (count : Nat) (popped : List ν × OperandStack ν)
    (found : List μ × OperandStack μ) : Prop :=
  popped.1.length = count ∧ List.Forall₂ values popped.1 found.1 ∧
    List.Forall₂ values popped.2.topFirst found.2.topFirst

/-- Stacks of related values that hold enough of them give related ones, in the order in which they were
pushed. -/
theorem OperandStack.pop_alike {C : Comparison σ τ} {values : ν → μ → Prop} {stack : OperandStack ν}
    {other : OperandStack μ} {count : Nat} (related : List.Forall₂ values stack.topFirst other.topFirst)
    (held : count ≤ other.depth) :
    C.Alike (ArePopped values count) (stack.pop count) (other.pop count) := by
  have same : stack.depth = other.depth := related.length_eq
  have enough : ¬ (stack.depth : Int) < count := by omega
  have enoughOther : ¬ (other.depth : Int) < count := by omega
  have length : count ≤ stack.topFirst.length := held.trans_eq same.symm
  simp only [pop, if_neg enough, if_neg enoughOther, Int.natCast_nonneg, ↓reduceIte, Int.toNat_natCast]
  refine .ok ⟨?_, List.rel_reverse (List.forall₂_take count related), List.forall₂_drop count related⟩
  rw [List.length_reverse, List.length_take_of_le length]

namespace Engine

variable {first : Engine σ ν} {second : Engine τ μ} {S : Simulation σ τ ν μ}

theorem sameFault_simulates {α β : Type} (cause : Cause) :
    S.EndsAlike (Action.failWith cause : Action (Session σ ν) α)
      (Action.failWith cause : Action (Session τ μ) β) := .of_failWith rfl

theorem reset_simulates {session : Session σ ν} {other : Session τ μ} (same : S.Matches session other) :
    S.Matches session.reset other.reset :=
  { same with stack := .nil, lastOperator := rfl, phase := rfl }

theorem writeText_simulates {text other : String} (equal : S.sameTexts = true → text = other) :
    S.EndsAlike (Session.writeText text) (Session.writeText other) := by
  refine .of_modify fun session found same => { same with output := fun asked => ?_ }
  rw [same.output asked, equal asked, String.append_assoc]

theorem begin_simulates : S.EndsAlike Session.begin Session.begin := by
  refine .bind .of_get fun session other same => ?_
  rw [show session.phase = other.phase from same.phase]
  split
  · exact .of_set { same with phase := rfl }
  · exact sameFault_simulates _

/-- What a solved equation is reported with may differ. -/
theorem countSolved_simulates (bindings others : List Binding) :
    S.EndsAlike (countSolved bindings) (countSolved others) := by
  refine .bind (.of_modify fun session other same => ?_) fun _ _ _ => .bind .of_get fun _ _ _ => ?_
  · have counted := same.statements
    exact { same with statements := by push_cast; omega }
  · cases bindings.isEmpty <;> cases others.isEmpty
    · exact .bind .of_report fun _ _ _ => .of_pure trivial
    · exact .pure_right (.bind .of_report fun _ => .of_pure _) fun _ => trivial
    · exact .pure_left (.bind .of_report fun _ => .of_pure _) fun _ => trivial
    · exact .of_pure trivial

/-- The only values on two stacks are related. -/
theorem result_simulates {session : Session σ ν} {other : Session τ μ} (same : S.Matches session other) :
    Option.Rel S.values session.result? other.result? := by
  have related := same.stack
  unfold Session.result?
  generalize session.stack.topFirst = held at related ⊢
  generalize other.stack.topFirst = found at related ⊢
  cases related with
  | nil => exact .none
  | cons top below =>
      cases below with
      | nil => exact .some top
      | cons _ _ => exact .none

/-- Documents end alike when their steps do. -/
theorem process_simulates_of_steps {settings others : Settings} {filename text : String}
    (steps : S.EndsAlike (first.performAll (documentSteps settings text))
      (second.performAll (documentSteps others text)))
    {before : Traced (Session σ ν)} {other : Traced (Session τ μ)}
    (start : S.Matches before.state.forDocument other.state.forDocument) :
    S.sessions.Ends (fun _ _ => True) (first.process settings filename text before)
      (second.process others filename text other) := by
  have counted : S.EndsAlike
      (do
        let session ← Action.get
        Action.report .debug .api s!"{filename}: {session.statements} statement(s) processed")
      (do
        let session ← Action.get
        Action.report .debug .api s!"{filename}: {session.statements} statement(s) processed") :=
    .bind .of_get fun _ _ _ => .of_report
  exact (steps.bind fun _ _ _ => counted) ⟨before.state.forDocument, before.log⟩
    ⟨other.state.forDocument, other.log⟩ start

section Simulated

variable (simulates : first.Simulates second S)
include simulates

/-! ## Building -/

theorem onEngine_simulates {α β : Type} {action : Action σ α} {other : Action τ β}
    (relates : S.engines.Relates (fun _ _ => True) action other) :
    S.EndsAlike (Session.onEngine action : Action (Session σ ν) α)
      (Session.onEngine other : Action (Session τ μ) β) := by
  refine relates.within (fun _ _ same => same.engine) (fun _ _ _ _ same changed => ?_)
    (fun fault found faults => ?_) (fun _ alone => alone) fun _ alone => alone
  · exact { same with engine := changed }
  · obtain ⟨rfl, unplaced⟩ := simulates.faults fault found faults
    exact (Fault.movedDown_of_unplaced unplaced S.lines).symm

theorem ofExcept_simulates {α β : Type} {results : α → β → Prop} {computation : Except Cause α}
    {other : Except Cause β} (alike : S.engines.Alike results computation other) :
    S.sessions.Relates results (Action.ofExcept computation) (Action.ofExcept other) := by
  refine .of_ofExcept ?_
  cases alike with
  | ok result => exact .ok result
  | error faults => exact .error (simulates.faults _ _ faults).1

theorem ensureRoom_simulates (extra : Nat) :
    S.EndsAlike (first.ensureRoom extra) (second.ensureRoom extra) := by
  refine .bind .of_get fun session other same => ?_
  have depth : session.stack.depth = other.stack.depth := same.stack.length_eq
  rcases simulates.hasRoom session.engine other.engine ((session.stack.depth + extra : Nat) : Int)
    same.engine with equal | ⟨full, alone⟩
  · rw [equal, depth]
    split
    · exact .of_pure trivial
    · exact sameFault_simulates _
  · rw [full]
    exact fun _ _ _ => .left alone

theorem pushOperand_simulates (extra : Nat) {value : ν} {other : μ} (related : S.values value other) :
    S.EndsAlike (first.pushOperand extra value) (second.pushOperand extra other) :=
  .bind (ensureRoom_simulates simulates extra) fun _ _ _ => .of_modify fun _ _ same =>
    { same with stack := .cons related same.stack, lastOperator := rfl }

theorem apply_simulates (operator : Operator) :
    S.EndsAlike (first.apply operator) (second.apply operator) := by
  refine .bind (ensureRoom_simulates simulates 1) fun _ _ _ => .bind .of_get fun session other same => ?_
  have depth : session.stack.depth = other.stack.depth := same.stack.length_eq
  rw [depth]
  split
  · exact sameFault_simulates _
  · rename_i held
    refine .bind (.of_ofExcept (OperandStack.pop_alike same.stack (Nat.le_of_not_lt held))) ?_
    rintro ⟨operands, below⟩ ⟨others, rest⟩ ⟨length, related, left⟩
    exact .bind (.of_ofExcept (simulates.construct operator operands others length related))
      fun value found built => .of_set { same with stack := .cons built left, lastOperator := rfl }

theorem execute_simulates (instruction : Instruction) :
    S.EndsAlike (first.execute instruction) (second.execute instruction) := by
  cases instruction with
  | named name => exact pushOperand_simulates simulates 2 (simulates.named name)
  | anonymous => exact pushOperand_simulates simulates 1 simulates.anonymous
  | number value => exact pushOperand_simulates simulates 2 (simulates.number value)
  | apply operator => exact apply_simulates simulates operator

theorem executeAll_simulates (program : List Instruction) :
    S.EndsAlike (first.executeAll program) (second.executeAll program) := by
  induction program with
  | nil => exact .of_pure trivial
  | cons instruction rest ih => exact (execute_simulates simulates instruction).bind fun _ _ _ => ih

/-! ## Statements -/

/-- Statements end alike in both sessions, with a fault of the engine or without one. -/
theorem finishEquation_simulates : S.EndsAlike first.finishEquation second.finishEquation := by
  refine .andFinally (.bind .of_get fun session other same => ?_) fun _ _ => reset_simulates
  have result := result_simulates same
  rw [show session.lastOperator = other.lastOperator from same.lastOperator]
  generalize session.result? = value at result ⊢
  generalize other.result? = found at result ⊢
  cases result with
  | none => exact sameFault_simulates _
  | some related =>
      cases other.lastOperator with
      | none => exact sameFault_simulates _
      | some operator =>
          cases operator with
          | equation =>
              exact .bind (.of_set { same with lastOperator := rfl, phase := rfl }) fun _ _ _ =>
                .bind (onEngine_simulates simulates (simulates.solve _ _ related)) fun bindings others _ =>
                  countSolved_simulates bindings others
          | _ => exact sameFault_simulates _

theorem dispatchCommand_simulates {name payload : String}
    (answered : S.engines.Relates (fun _ _ => True) (first.command name payload)
      (second.command name payload)) :
    S.EndsAlike (first.dispatchCommand name payload) (second.dispatchCommand name payload) := by
  refine .andFinally ?_ fun _ _ => reset_simulates
  refine .bind (.of_modify fun _ _ same => { same with phase := rfl }) fun _ _ _ =>
    .bind .of_report fun _ _ _ => .bind (onEngine_simulates simulates answered)
      fun _ _ _ => .of_modify fun session other same => ?_
  have counted := same.statements
  exact { same with statements := by push_cast; omega }

theorem writeReference_simulates (name : String) :
    S.EndsAlike (first.writeReference name) (second.writeReference name) := by
  have translated : S.sessions.Relates (fun text other => S.sameTexts = true → text = other)
      (first.translation name) (second.translation name) := by
    refine .bind .of_get fun session other same => ?_
    exact .bind (ofExcept_simulates simulates (simulates.translate _ _ name same.engine))
      fun text other equal => .of_pure fun asked => by rw [equal asked]
  exact translated.bind fun _ _ equal => writeText_simulates equal

/-- Statements that end alike end alike when their faults are placed and they are closed. -/
theorem inStatement_simulates {α β : Type} {results : α → β → Prop} {action : Action (Session σ ν) α}
    {other : Action (Session τ μ) β} (line : Nat) (relates : S.sessions.Relates results action other) :
    S.sessions.Relates results (inStatement (line + S.lines) action) (inStatement line other) := by
  refine relates.onFault ?_ (fun fault state alone => ?_) fun fault state alone => ?_
  · rintro _ found session other rfl same
    simp only [show (found.movedDown S.lines).cause = found.cause from rfl]
    split
    · exact ⟨Fault.placedAt_movedDown found line S.lines, reset_simulates same⟩
    · exact ⟨rfl, same⟩
  · split
    · exact simulates.left fault _ alone
    · exact alone
  · split
    · exact simulates.right fault _ alone
    · exact alone

/-- The unfinished statement that a fault was found in. -/
theorem unfinished_simulates (line : Nat) (begun : Bool) (program : List Instruction) (fault : Fault) :
    S.EndsAlike (first.perform (.unfinished (line + S.lines) begun program (fault.movedDown S.lines)))
      (second.perform (.unfinished line begun program fault)) := by
  refine inStatement_simulates simulates line ?_
  cases begun with
  | false => exact .of_fail rfl
  | true =>
      exact .bind begin_simulates fun _ _ _ =>
        .bind (executeAll_simulates simulates program) fun _ _ _ => .of_fail rfl

/-- A step and the same step further down end alike. -/
theorem perform_simulates {step : Step} (answered : step.IsAnsweredAlike first second S) :
    S.EndsAlike (first.perform (step.movedDown S.lines)) (second.perform step) := by
  cases step with
  | text raw => exact writeText_simulates fun _ => rfl
  | reference name => exact writeReference_simulates simulates name
  | equation line program =>
      exact inStatement_simulates simulates line (.bind begin_simulates fun _ _ _ =>
        .bind (executeAll_simulates simulates program) fun _ _ _ =>
          .bind (finishEquation_simulates simulates) fun _ _ _ => .of_pure trivial)
  | command line name payload =>
      exact inStatement_simulates simulates line (dispatchCommand_simulates simulates answered)
  | unfinished line begun program fault => exact unfinished_simulates simulates line begun program fault
  | halt fault => exact .of_fail rfl

/-- The steps of a document and the same steps further down end alike. -/
theorem performAll_simulates {steps : List Step}
    (answered : ∀ step ∈ steps, step.IsAnsweredAlike first second S) :
    S.EndsAlike (first.performAll (steps.map (·.movedDown S.lines))) (second.performAll steps) := by
  induction steps with
  | nil => exact .of_pure trivial
  | cons step rest ih =>
      obtain ⟨now, later⟩ := List.forall_mem_cons.mp answered
      exact (perform_simulates simulates now).bind fun _ _ _ => ih later

/-- A document ends alike on both engines. -/
theorem process_simulates {settings : Settings} {filename text : String} (level : S.lines = 0)
    (answered : ∀ step ∈ documentSteps settings text, step.IsAnsweredAlike first second S)
    {before : Traced (Session σ ν)} {other : Traced (Session τ μ)}
    (start : S.Matches before.state.forDocument other.state.forDocument) :
    S.sessions.Ends (fun _ _ => True) (first.process settings filename text before)
      (second.process settings filename text other) := by
  have steps := performAll_simulates simulates answered
  simp only [level, Step.movedDown_zero, List.map_id'] at steps
  exact process_simulates_of_steps steps start

end Simulated

end Engine

end EquationText
