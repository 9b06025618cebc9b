import EquationText.Proofs.Document
import EquationText.Proofs.Document.Composition
import EquationText.Proofs.Solver.Engine
import EquationText.Proofs.Token.Blocks

/-! # What is written before a fault

A document that fails does so within a block: the part before the block is accepted, and its output is all
that is written (`EquationText.process_failure`).
-/

namespace EquationText

/-- Whether a step writes literal text or a reference. -/
def Step.isWritten : Step → Bool
  | text _ | reference _ => true
  | equation _ _ | command _ _ _ | unfinished _ _ _ _ | halt _ => false

@[simp]
theorem Step.isWritten_movedDown (lines : Nat) (step : Step) :
    (step.movedDown lines).isWritten = step.isWritten := by
  cases step <;> rfl

/-! ## The steps of literal text and of blocks -/

namespace Context

variable {context : Context} {levels : Nat} {inside : Bool} {found : List Step}
  {tokens literal more : List Token}

theorem exists_written {lexeme : Lexeme} (isLiteral : lexeme.isLiteral = true) :
    ∃ step, written? lexeme = some step ∧ step.isWritten = true := by
  cases lexeme <;> first | exact ⟨_, rfl, rfl⟩ | cases isLiteral

theorem isLiteral_of_written {lexeme : Lexeme} {step : Step} (written : written? lexeme = some step) :
    lexeme.isLiteral = true := by
  cases lexeme <;> first | rfl | cases written

/-- Literal text leads to a step for each of its tokens. -/
theorem stepsFrom_literal {side : Production}
    (allLiteral : ∀ token ∈ literal, token.lexeme.isLiteral = true)
    (goesOn : more = [] → ∃ line, context.ending = .ok line) :
    context.stepsFrom side false [] (literal ++ more) =
      literal.filterMap (written? ·.lexeme) ++ context.stepsFrom side false [] more := by
  induction literal with
  | nil => rfl
  | cons token literal ih =>
      obtain ⟨head, others⟩ := List.forall_mem_cons.mp allLiteral
      obtain ⟨step, written, _⟩ := exists_written head
      have moves : (context.advance (literal ++ more)).outcome = .ok (literal ++ more) :=
        outcome_advance fun none => goesOn (List.append_eq_nil_iff.mp none).2
      have first := stepsFrom_append context side false [step] [] (literal ++ more)
      rw [List.cons_append, stepsFrom_written written, stepsPast_of_ok moves,
        List.filterMap_cons_some (f := fun token : Token => written? token.lexeme) written]
      exact first.trans (congrArg (step :: ·) (ih others))

/-- Tokens that are none of literal text lead to no step that writes. -/
theorem isWritten_of_mem_stepsFrom (inner : ∀ token ∈ tokens, token.lexeme.isLiteral = false) :
    ∀ step ∈ context.stepsFrom (context.production levels .expression) inside [] tokens,
      step.isWritten = false := by
  have literal : ∀ token ∈ tokens, ∀ step,
      written? token.lexeme = some step → step.isWritten = false := by
    intro token member step written
    have isLiteral := isLiteral_of_written written
    rw [inner token member] at isLiteral
    cases isLiteral
  refine forall_stepsFrom literal (fun tokens => ?_) (fun _ _ => rfl) (fun _ _ => rfl) (List.forall_mem_nil _)
  unfold statement
  split
  · split <;> rfl
  · simp only
    split <;> rfl

end Context

variable {settings : Settings} {text outside block rest : String}

theorem documentSteps_literal (literal : IsLiteral settings text) :
    documentSteps settings text = (scan settings text).tokens.filterMap (Context.written? ·.lexeme) := by
  let context : Context := ⟨settings, (scan settings text).ending⟩
  have steps : context.stepsFrom (context.production settings.nestingLevels .expression) false []
      ((scan settings text).tokens ++ []) = _ :=
    Context.stepsFrom_literal literal.tokens fun _ => literal.ending
  rwa [List.append_nil, Context.stepsFrom_nil, List.reverse_nil, List.append_nil,
    ← documentSteps_eq_stepsFrom] at steps

/-- Literal text leads to steps that write. -/
theorem IsLiteral.isWritten (literal : IsLiteral settings text) :
    ∀ step ∈ documentSteps settings text, step.isWritten = true := by
  intro step member
  rw [documentSteps_literal literal, List.mem_filterMap] at member
  obtain ⟨token, inside, written⟩ := member
  obtain ⟨found, same, isWritten⟩ := Context.exists_written (literal.tokens token inside)
  rw [written] at same
  cases same
  exact isWritten

/-- A block after literal text leads to steps that do not write. -/
theorem IsBlockAfter.exists_steps (isBlock : IsBlockAfter settings outside block rest)
    (literal : IsLiteral settings outside) :
    ∃ steps, documentSteps settings (outside ++ block) = documentSteps settings outside ++ steps ∧
      ∀ step ∈ steps, step.isWritten = false := by
  obtain ⟨line, inner, closing, allInner, tokens, ends⟩ := isBlock.tokens
  have plain : ∀ token ∈ ⟨.blockOpen, line⟩ :: (inner ++ closing), token.lexeme.isLiteral = false := by
    refine List.forall_mem_cons.mpr ⟨rfl, List.forall_mem_append.mpr ⟨fun token member => ?_, ?_⟩⟩
    · exact Lexeme.isLiteral_of_isInner (allInner token member)
    · rcases ends with ⟨rfl, _⟩ | ⟨_, rfl, _⟩ <;> simp [Lexeme.isLiteral]
  rw [documentSteps_eq_stepsFrom settings (outside ++ block), tokens,
    Context.stepsFrom_literal literal.tokens fun none => (List.cons_ne_nil _ _ none).elim,
    ← documentSteps_literal literal]
  exact ⟨_, rfl, Context.isWritten_of_mem_stepsFrom plain⟩

/-! ## Runs of these steps -/

namespace Engine

variable {σ ν : Type} {engine : Engine σ ν} {step : Step} {steps : List Step} {written : String}
  {kept : σ → Prop}

/-- Whether the output of a session is a given text. -/
abbrev HasWritten (written : String) (session : Session σ ν) : Prop := session.output = written

theorem onEngine_keeps_output {α : Type} (action : Action σ α) :
    Action.Keeps (HasWritten written) (Session.onEngine action : Action (Session σ ν) α) :=
  fun _ same => same

theorem finishEquation_keeps_output : Action.Keeps (HasWritten written) engine.finishEquation := by
  have submitted : Action.Keeps (HasWritten written) engine.submitEquation := by
    refine .bind_get fun session same => ?_
    split
    · refine .bind (.of_set same) fun _ => .bind (onEngine_keeps_output _) fun bindings => ?_
      refine .bind (.of_modify fun _ same => same) fun _ => .bind .of_get fun counted => ?_
      split
      · exact .bind (.of_report _ _ _) fun _ => .of_pure _
      · exact .of_pure _
    · exact .of_failWith _
  exact submitted.andFinally fun _ same => same

theorem dispatchCommand_keeps_output (name payload : String) :
    Action.Keeps (HasWritten written) (engine.dispatchCommand name payload) := by
  have submitted : Action.Keeps (HasWritten written) (engine.submitCommand name payload) :=
    .bind (.of_modify fun _ same => same) fun _ => .bind (.of_report _ _ _) fun _ =>
      .bind (onEngine_keeps_output _) fun _ => .of_modify fun _ same => same
  exact submitted.andFinally fun _ same => same

/-- A step that does not write leaves the output as it is, however it ends. -/
theorem perform_keeps_output (unwritten : step.isWritten = false) :
    Action.Keeps (HasWritten written) (engine.perform step) := by
  have ignores : Session.IgnoresOperands (HasWritten (σ := σ) (ν := ν) written) :=
    fun _ _ _ _ same => same
  cases step with
  | equation line program =>
      exact inStatement_keeps ignores line (.bind (begin_keeps ignores) fun _ =>
        .bind (executeAll_keeps ignores engine program) fun _ =>
          .bind finishEquation_keeps_output fun _ => .of_pure _)
  | command line name payload =>
      exact inStatement_keeps ignores line (dispatchCommand_keeps_output name payload)
  | unfinished line begun program fault => exact perform_refusal_keeps ignores engine rfl
  | halt fault => exact perform_refusal_keeps ignores engine rfl
  | _ => cases unwritten

theorem performAll_keeps_output (unwritten : ∀ step ∈ steps, step.isWritten = false) :
    Action.Keeps (HasWritten written) (engine.performAll steps) := by
  induction steps with
  | nil => exact .of_pure _
  | cons step rest ih =>
      obtain ⟨first, later⟩ := List.forall_mem_cons.mp unwritten
      exact .bind (perform_keeps_output first) fun _ => ih later

/-- What a step that writes adds to the output. -/
inductive Writes (engine : Engine σ ν) (state : σ) : Step → String → Prop
  | text (raw : String) : Writes engine state (.text raw) raw
  | reference {name : String} {text : Option String} (answer : engine.translate state name = .ok text) :
      Writes engine state (.reference name) (text.getD name)

theorem perform_of_writes {before : Traced (Session σ ν)} {added : String}
    (writes : engine.Writes before.state.engine step added) :
    engine.perform step before = Session.writeText added before := by
  cases writes with
  | text raw => rfl
  | @reference name text answer =>
      have translated : engine.translation name before = (.ok (text.getD name), before) := by
        unfold translation
        rw [Action.run_bind_of_ok Action.run_get, answer]
        rfl
      exact Action.run_bind_of_ok translated

/-- Steps that write come to writing their texts, one after another. -/
theorem performAll_of_writes {before : Traced (Session σ ν)} {texts : List String}
    (writes : List.Forall₂ (engine.Writes before.state.engine) steps texts) :
    engine.performAll steps before = Session.writeText (String.join texts) before := by
  induction steps generalizing before texts with
  | nil =>
      cases writes
      rw [Session.writeText, Action.modify, String.join_nil, String.append_empty]
      rfl
  | cons step rest ih =>
      cases writes with
      | @cons _ added _ others first later =>
          have run : engine.performAll (step :: rest) before = _ :=
            Action.run_bind_of_ok (perform_of_writes first)
          refine run.trans (Eq.trans (ih later) ?_)
          simp only [Session.writeText, Action.modify, String.join_cons, String.append_assoc]

/-- Steps that write have texts as long as every reference has an answer. -/
theorem exists_writes {state : σ} (answers : ∀ name, ∃ text, engine.translate state name = .ok text)
    (isWritten : ∀ step ∈ steps, step.isWritten = true) :
    ∃ texts, List.Forall₂ (engine.Writes state) steps texts := by
  induction steps with
  | nil => exact ⟨[], .nil⟩
  | cons step rest ih =>
      obtain ⟨first, later⟩ := List.forall_mem_cons.mp isWritten
      obtain ⟨texts, others⟩ := ih later
      cases step with
      | text raw => exact ⟨_, .cons (.text raw) others⟩
      | reference name =>
          obtain ⟨text, answer⟩ := answers name
          exact ⟨_, .cons (.reference answer) others⟩
      | _ => cases first

/-- What an engine maintains holds after steps that succeed. -/
theorem kept_of_performAll (maintains : engine.Maintains (fun _ => True) kept fun _ => True)
    {before after : Traced (Session σ ν)} (holds : kept before.state.engine)
    (ok : engine.performAll steps before = (.ok (), after)) : kept after.state.engine := by
  have allowed : StepsAllowed (fun _ => True) steps := fun step _ => by
    cases step <;> first | trivial | exact fun _ _ => trivial
  exact (performAll_yields maintains allowed _ _ _ ⟨holds, fun _ _ => trivial⟩ ok).1.1

section Onward

variable {first : String} {lineAfter : Nat} {start middle last : Traced (Session σ ν)}
  (usual : settings.HasUsualMarks) (closed : EndsClosed (scan settings first).tokens)
  (ending : (scan settings first).ending = .ok lineAfter)
  (accepted : engine.performAll (documentSteps settings first) start = (.ok (), middle))
include usual closed ending accepted

/-- What comes after an accepted document that ends with a block is carried out from where that ends. -/
theorem performAll_onward (text : String) :
    engine.performAll (documentSteps settings (first ++ text)) start =
      engine.performAll
        ((documentSteps settings text).map (·.movedDown (lineEnds first.toList))) middle := by
  rw [engine.performAll_documentSteps_append usual text closed ending, Action.run_bind_of_ok accepted]

/-- Literal text after an accepted document that ends with a block is accepted. -/
theorem performAll_append_literal (literal : IsLiteral settings text)
    (answers : ∀ name, ∃ text, engine.translate middle.state.engine name = .ok text) :
    ∃ last, engine.performAll (documentSteps settings (first ++ text)) start = (.ok (), last) := by
  rw [performAll_onward usual closed ending accepted]
  have isWritten : ∀ step ∈ (documentSteps settings text).map (·.movedDown (lineEnds first.toList)),
      step.isWritten = true := by
    simpa using literal.isWritten
  obtain ⟨texts, writes⟩ := exists_writes answers isWritten
  exact ⟨_, performAll_of_writes writes⟩

/-- A block writes nothing. -/
theorem output_append_block (literal : IsLiteral settings outside)
    (isBlock : IsBlockAfter settings outside block rest)
    (ok : engine.performAll (documentSteps settings (first ++ outside)) start = (.ok (), last)) :
    (engine.performAll (documentSteps settings (first ++ outside ++ block)) start).2.state.output =
      last.state.output := by
  obtain ⟨steps, same, unwritten⟩ := isBlock.exists_steps literal
  rw [performAll_onward usual closed ending accepted] at ok
  rw [String.append_assoc, performAll_onward usual closed ending accepted, same, List.map_append,
    performAll_append, Action.run_bind_of_ok ok]
  have keeps : Action.Keeps (HasWritten last.state.output)
      (engine.performAll (steps.map (·.movedDown (lineEnds first.toList)))) :=
    performAll_keeps_output (by simpa using unwritten)
  exact keeps last rfl

end Onward

/-- What comes after a block in which a document stops has no effect. -/
theorem performAll_of_stopped {start after : Traced (Session σ ν)} {fault : Fault}
    (usual : settings.HasUsualMarks) (isBlock : IsBlockAfter settings outside block rest)
    (stopped : engine.performAll (documentSteps settings (outside ++ block)) start = (.error fault, after)) :
    engine.performAll (documentSteps settings (outside ++ block ++ rest)) start = (.error fault, after) := by
  by_cases none : rest = ""
  · rwa [none, String.append_empty]
  · obtain ⟨closed, line, ending⟩ := isBlock.endsClosed none
    rw [engine.performAll_documentSteps_append usual rest closed ending, Action.run_bind_of_error stopped]

/-- A document that fails, and whose first part ends with a block and is accepted, fails within a later
block: what is outside before the block is accepted, and nothing is written after it. -/
theorem exists_block_of_failure (maintains : engine.Maintains (fun _ => True) kept fun _ => True)
    (answers : ∀ state name, kept state → ∃ text, engine.translate state name = .ok text)
    (usual : settings.HasUsualMarks) {first second : String} {lineAfter : Nat} {fault : Fault}
    {start middle after : Traced (Session σ ν)} (holds : kept start.state.engine)
    (closed : EndsClosed (scan settings first).tokens) (ending : (scan settings first).ending = .ok lineAfter)
    (accepted : engine.performAll (documentSteps settings first) start = (.ok (), middle))
    (failed : engine.performAll (documentSteps settings (first ++ second)) start = (.error fault, after)) :
    ∃ outside block rest last, first ++ second = outside ++ block ++ rest ∧
      IsBlockAfter settings outside block rest ∧
      engine.performAll (documentSteps settings outside) start = (.ok (), last) ∧
      after.state.output = last.state.output ∧
      engine.performAll (documentSteps settings (outside ++ block)) start = (.error fault, after) := by
  induction size : second.toList.length using Nat.strong_induction_on
    generalizing first second lineAfter middle with
  | _ size ih =>
  subst size
  have literals : ∀ {text}, IsLiteral settings text → ∃ last,
      engine.performAll (documentSteps settings (first ++ text)) start = (.ok (), last) :=
    fun literal => performAll_append_literal usual closed ending accepted literal
      (answers _ · (kept_of_performAll maintains holds accepted))
  rcases literal_or_block usual second with literal | ⟨outside, block, rest, rfl, literal, isBlock⟩
  · obtain ⟨last, ok⟩ := literals literal
    rw [ok] at failed
    cases failed
  have later := isBlock.after usual closed ending
  have whole : first ++ (outside ++ block ++ rest) = first ++ outside ++ block ++ rest := by
    simp only [String.append_assoc]
  rw [whole] at failed ⊢
  rcases run : engine.performAll (documentSteps settings (first ++ outside ++ block)) start with
    ⟨found | _, blockEnd⟩
  · -- The document stops in this block, whatever comes after it.
    rw [performAll_of_stopped usual later run] at failed
    cases failed
    obtain ⟨last, ok⟩ := literals literal
    have output := output_append_block usual closed ending accepted literal isBlock ok
    rw [run] at output
    exact ⟨first ++ outside, block, rest, last, rfl, later, ok, output, run⟩
  · -- The block is accepted, and what is left is shorter.
    by_cases none : rest = ""
    · rw [none, String.append_empty, run] at failed
      cases failed
    · obtain ⟨blockClosed, line, blockEnding⟩ := later.endsClosed none
      have shorter : rest.toList.length < (outside ++ block ++ rest).toList.length := by
        have shorter := isBlock.length_lt usual
        simp only [String.toList_append, List.length_append] at shorter ⊢
        omega
      exact ih rest.toList.length shorter blockClosed blockEnding run failed rfl

end Engine

variable {filename : String} {before after : Traced SolverSession} {fault : Fault}

/-- A document that fails does so within a block, with a usual precision: the part before the block is
accepted, all that is written is the output of that part, and the document that ends with the block fails in
the same way. -/
theorem process_failure (usual : settings.HasUsualMarks)
    (precision : Solver.IsUsualPrecision before.state.engine.precision)
    (failed : (linearEngine settings).process settings filename text before = (.error fault, after)) :
    ∃ outside block rest middle, text = outside ++ block ++ rest ∧
      IsBlockAfter settings outside block rest ∧
      (linearEngine settings).process settings filename outside before = (.ok (), middle) ∧
      after.state.output = middle.state.output ∧
      (linearEngine settings).process settings filename (outside ++ block) before =
        (.error fault, after) := by
  have empty : scan settings "" = ⟨[], .ok 1⟩ := scanDocument_nil
  have none : documentSteps settings "" = [] := by
    rw [documentSteps_eq_stepsFrom, empty, Context.stepsFrom_nil]
    rfl
  let begun : Traced SolverSession := ⟨before.state.forDocument, before.log⟩
  have holds : Solver.IsUsualPrecision begun.state.engine.precision := precision
  rw [Engine.process_eq_error_iff, ← String.empty_append (s := text)] at failed
  obtain ⟨outside, block, rest, last, whole, isBlock, ok, output, stopped⟩ :=
    Engine.exists_block_of_failure (linearEngine_maintains_isUsualPrecision settings)
      (fun _ name usual => Solver.exists_translate settings usual name) usual holds
      (by rw [empty]; exact nofun) (by rw [empty]) (by rw [none]; rfl) failed
  obtain ⟨result, state⟩ := Engine.process_eq (linearEngine settings) settings filename outside before
  rw [ok] at result state
  refine ⟨outside, block, rest, ((linearEngine settings).process settings filename outside before).2,
    String.empty_append.symm.trans whole, isBlock, Prod.ext result rfl, ?_,
    Engine.process_eq_error_iff.mpr stopped⟩
  rw [state, output]

/-- A document with two blocks, the second of which has a statement without a right side. -/
def secondOpen : String := "a\n\x7b\x7b x = 2 \x7d\x7d is x; \x7b\x7b y = 3; z = \x7d\x7d x"

def afterSecondOpen : Traced SolverSession :=
  ((linearEngine {}).process {} "<string>" secondOpen freshSession).2

/-- What is written is the output of the part before the second block. -/
theorem process_failure_secondOpen :
    ∃ outside block rest middle, secondOpen = outside ++ block ++ rest ∧
      (linearEngine {}).process {} "<string>" outside freshSession = (.ok (), middle) ∧
      middle.state.output = "a\n is 2; " := by
  have failed : (linearEngine {}).process {} "<string>" secondOpen freshSession =
      (.error ((Cause.reading (.unexpected "\x7d\x7d")).onLine 2), afterSecondOpen) :=
    Prod.ext (by decide +kernel) rfl
  obtain ⟨outside, block, rest, middle, whole, _, accepted, output, _⟩ :=
    process_failure Settings.hasUsualMarks_standard ⟨by decide, by decide⟩ failed
  exact ⟨outside, block, rest, middle, whole, accepted, output.symm.trans (by decide +kernel)⟩

end EquationText
