import EquationText.Proofs.Document
import EquationText.Proofs.Session.Comparison

/-! # Concatenated documents

A document that is accepted and ends with a block can be followed by any other document: carrying out the
whole comes to carrying out the second one on the session that the first one leaves
(`EquationText.process_append`).
-/

namespace EquationText

variable {settings : Settings} {filename text first second : String}

/-- Whether a text is empty or ends at the closing mark of a block. -/
def EndsAtBlock (settings : Settings) (text : String) : Prop :=
  text = "" ∨ ∃ line, (scan settings text).tokens.getLast? = some ⟨.blockClose, line⟩

theorem EndsAtBlock.endsClosed (ends : EndsAtBlock settings text) :
    EndsClosed (scan settings text).tokens := by
  rcases ends with rfl | ⟨line, last⟩
  · have none : (scan settings "").tokens = [] := congrArg Scan.tokens scanDocument_nil
    rw [none]
    exact nofun
  · intro token member
    rw [last] at member
    cases member
    rfl

/-! ## Accepted documents -/

/-- The steps of a document that could not be scanned to its end have one for a fault. -/
theorem Context.exists_refusal {context : Context} {side : Production} {inside : Bool}
    {found : List Step} {tokens : List Token} {fault : Fault} (ending : context.ending = .error fault)
    (more : inside = true ∨ tokens ≠ []) :
    ∃ step ∈ context.stepsFrom side inside found tokens, step.isRefusal = true := by
  have halted : ∀ {fault : Fault} {found : List Step},
      ∃ step ∈ (Step.halt fault :: found).reverse, step.isRefusal = true :=
    ⟨_, List.mem_reverse.mpr (List.mem_cons_self ..), rfl⟩
  have left : ∀ {rest tokens : List Token}, (context.advance rest).outcome = .ok tokens → rest ≠ [] := by
    rintro _ tokens ok rfl
    unfold advance at ok
    rw [ending] at ok
    cases ok
  fun_induction stepsFrom context side inside found tokens with
  | case1 found line rest remaining advanced ih => exact ih (.inr (left advanced))
  | case2 => exact halted
  | case3 found line rest remaining advanced ih => exact ih (.inl rfl)
  | case4 => exact halted
  | case5 found tokens notClose notEnd step read =>
      exact ⟨step, List.mem_reverse.mpr (List.mem_cons_self ..), isRefusal_of_statement read⟩
  | case6 found tokens notClose notEnd step remaining read ended ih => exact ih (.inl rfl)
  | case7 => exact halted
  | case8 inside found outside =>
      rcases more with inside' | nonempty
      · exact (outside inside').elim
      · exact (nonempty rfl).elim
  | case9 inside found outside token rest raw lexeme remaining advanced ih => exact ih (.inr (left advanced))
  | case10 => exact halted
  | case11 inside found outside token rest name lexeme remaining advanced ih =>
      exact ih (.inr (left advanced))
  | case12 => exact halted
  | case13 inside found outside token rest lexeme remaining advanced ih => exact ih (.inl rfl)
  | case14 => exact halted
  | case15 => exact halted

section Run

variable {σ ν : Type} {engine : Engine σ ν} {before after : Traced (Session σ ν)}

/-- A document that is accepted can be scanned to its end. -/
theorem scan_of_accepted
    (accepted : engine.performAll (documentSteps settings text) before = (.ok (), after)) :
    ∃ line, (scan settings text).ending = .ok line := by
  cases ending : (scan settings text).ending with
  | ok line => exact ⟨line, rfl⟩
  | error fault =>
      have refused : ∃ step ∈ documentSteps settings text, step.isRefusal = true := by
        rw [documentSteps_eq_stepsFrom]
        exact Context.exists_refusal ending (.inr (scanDocument_ne_nil ending))
      obtain ⟨found, last, failed⟩ := engine.performAll_of_refusal refused before
      rw [accepted] at failed
      cases failed

/-- A session with no statement open, whose stack was not built on by an operator. -/
structure Session.IsClosed (session : Session σ ν) : Prop where
  lastOperator : session.lastOperator = none
  phase : session.phase = .idle

namespace Engine

open Session (IsClosed)

theorem inStatement_isClosed {action : Action (Session σ ν) Unit} (line : Nat)
    (closes : ∀ before after, action before = (.ok (), after) → after.state.IsClosed) :
    Action.Yields IsClosed (fun _ => True) (inStatement line action) := by
  intro before _ after _ run
  unfold inStatement Action.onFault at run
  rcases inner : action before with ⟨fault | _, middle⟩ <;> rw [inner] at run
  · cases run
  · cases run
    exact ⟨closes _ _ inner, trivial⟩

/-- A step that succeeds leaves no statement open. -/
theorem perform_isClosed (engine : Engine σ ν) (step : Step) :
    Action.Yields IsClosed (fun _ => True) (engine.perform step) := by
  have written : ∀ raw, Action.Yields IsClosed (fun _ => True)
      (Session.writeText raw : Action (Session σ ν) Unit) := fun raw =>
    .of_modify fun session closed => ⟨closed.lastOperator, closed.phase⟩
  have reset : ∀ {α : Type} {action : Action (Session σ ν) α} before after result,
      action.andFinally Session.reset before = (result, after) → after.state.IsClosed := by
    intro α action before after result run
    have state := congrArg (fun result => result.2.state) run
    exact state ▸ ⟨rfl, rfl⟩
  cases step with
  | text raw => exact written raw
  | reference name =>
      have translated : Action.Yields IsClosed (fun _ => True) (engine.translation name) :=
        .bind .of_get fun _ _ => .bind (.of_ofExcept fun _ _ => trivial) fun _ _ => .of_pure trivial
      exact translated.bind fun text _ => written text
  | equation line program =>
      refine inStatement_isClosed line fun before after run => ?_
      obtain ⟨_, _, _, run⟩ := Action.run_bind_eq_ok run
      obtain ⟨_, _, _, run⟩ := Action.run_bind_eq_ok run
      obtain ⟨_, _, finished, run⟩ := Action.run_bind_eq_ok run
      cases run
      exact reset _ _ _ finished
  | command line name payload => exact inStatement_isClosed line fun before after run => reset _ _ _ run
  | unfinished line begun program fault =>
      intro before _ after _ run
      have refused : (Step.unfinished line begun program fault).isRefusal = true := rfl
      obtain ⟨found, last, failed⟩ := engine.perform_refusal_error refused before
      rw [failed] at run
      cases run
  | halt fault => exact .of_fail fault

theorem performAll_isClosed (engine : Engine σ ν) (steps : List Step) :
    Action.Yields IsClosed (fun _ => True) (engine.performAll steps) := by
  induction steps with
  | nil => exact .of_pure trivial
  | cons step rest ih => exact (perform_isClosed engine step).bind fun _ _ => ih

end Engine

end Run

/-! ## The second document -/

theorem Solver.Matches.same (verbose : Bool) (solver : Solver) :
    solver.Matches Eq (verbose, verbose) true solver :=
  ⟨rfl, rfl, rfl, rfl, rfl, .inl rfl, fun _ => rfl, .inl ⟨rfl, rfl⟩⟩

/-- Solvers that match in everything are equal. -/
theorem Solver.Matches.eq {verbose : Bool} {a b : Solver} (same : a.Matches Eq (verbose, verbose) true b) :
    a = b := by
  have flag : a.verbose = b.verbose := same.verbose.elim id fun pair =>
    (congrArg Prod.fst pair).trans (congrArg Prod.snd pair).symm
  have precision : a.precision = b.precision := same.precision rfl
  obtain ⟨known, solved, created, maxDepth, closed⟩ := same
  cases a
  cases b
  simp_all

/-- Carrying out a document that is accepted and then another one, or both as one document. If the first
one is empty or ends at the closing mark of a block, the engine and its stack are the same in the end, the
texts written make up the same output, and the whole is accepted or stops with the fault with which the
second document stops, at a line that is further down by the line ends of the first. -/
theorem process_append (usual : settings.HasUsualMarks) (filename : String)
    {before after : Traced SolverSession}
    (accepted : (linearEngine settings).process settings filename first before = (.ok (), after))
    (ends : EndsAtBlock settings first) (second : String) :
    let whole := (linearEngine settings).process settings filename (first ++ second) before
    let later := (linearEngine settings).process settings filename second after
    whole.1 = later.1.mapError (Fault.movedDown (lineEnds first.toList)) ∧
      whole.2.state.engine = later.2.state.engine ∧ whole.2.state.stack = later.2.state.stack ∧
      whole.2.state.output = after.state.output ++ later.2.state.output := by
  intro whole later
  obtain ⟨middle, run, same⟩ := Engine.performAll_of_accepted accepted
  obtain ⟨lineAfter, ending⟩ := scan_of_accepted run
  have together := (linearEngine settings).performAll_documentSteps_append usual second ends.endsClosed ending
  have start : Session.Matches (Solver.comparison Eq (false, false) true) after.state.output true middle.state
      after.state.forDocument := by
    obtain ⟨closed, _⟩ := Engine.performAll_isClosed _ _ _ _ _ ⟨rfl, rfl⟩ run
    rw [same] at closed ⊢
    exact ⟨.same false _, rfl, closed.lastOperator, closed.phase, fun _ => String.append_empty.symm⟩
  have alike : Engine.EndsAlike (Solver.comparison Eq (false, false) true) after.state.output true
      (lineEnds first.toList)
      ((linearEngine settings).performAll
        ((documentSteps settings second).map (·.movedDown (lineEnds first.toList))))
      ((linearEngine settings).performAll (documentSteps settings second)) :=
    Engine.performAll_relates (linearEngine_compares settings (false, false) true) _
  obtain ⟨wholeResult, wholeState⟩ :=
    Engine.process_eq (linearEngine settings) settings filename (first ++ second) before
  obtain ⟨laterResult, laterState⟩ :=
    Engine.process_eq (linearEngine settings) settings filename second after
  rw [together, Action.run_bind_of_ok run] at wholeResult wholeState
  have ended := alike middle ⟨after.state.forDocument, after.log⟩ start
  have result : whole.1 = later.1.mapError (Fault.movedDown (lineEnds first.toList)) ∧
      Session.Matches (Solver.comparison Eq (false, false) true) after.state.output true whole.2.state
        later.2.state := by
    rw [wholeResult, wholeState, laterResult, laterState]
    generalize Engine.performAll _ _ middle = wholeRun at ended ⊢
    generalize Engine.performAll _ _ (Traced.mk _ after.log) = laterRun at ended ⊢
    cases ended with
    | ok _ ended => exact ⟨rfl, ended⟩
    | error faults ended => exact ⟨congrArg _ faults, ended⟩
    | left alone => cases alone.2
    | right alone => cases alone.2
  exact ⟨result.1, result.2.engine.eq, result.2.stack, result.2.output rfl⟩

/-- A document of four lines that ends at the closing mark of its block. -/
def sumAndLast : String := "sum\n\x7b\x7b\n x = y + 1\n y = 2 \x7d\x7d"

/-- A document that refers to a name and has a statement without a right side. -/
def referenceAndOpen : String := " of x\n\x7b\x7b z = \x7d\x7d"

def afterSumAndLast : Traced SolverSession :=
  ((linearEngine {}).process {} "<string>" sumAndLast freshSession).2

/-- The second document refers to what the first one has solved; its fault is at line 2 by itself and at
line 5 after the first one. -/
theorem process_append_referenceAndOpen :
    let whole := (linearEngine {}).process {} "<string>" (sumAndLast ++ referenceAndOpen) freshSession
    whole.1 = .error ((Cause.reading (.unexpected "\x7d\x7d")).onLine 5) ∧
      whole.2.state.output = "sum\n of 3\n" := by
  intro whole
  have accepted :
      (linearEngine {}).process {} "<string>" sumAndLast freshSession = (.ok (), afterSumAndLast) :=
    Prod.ext (by decide +kernel) rfl
  obtain ⟨result, _, _, output⟩ := process_append Settings.hasUsualMarks_standard "<string>" accepted
    (.inr ⟨4, by decide +kernel⟩) referenceAndOpen
  have later : ((linearEngine {}).process {} "<string>" referenceAndOpen afterSumAndLast).1 =
      .error ((Cause.reading (.unexpected "\x7d\x7d")).onLine 2) := by decide +kernel
  refine ⟨result.trans (by rw [later]; decide +kernel), output.trans (by decide +kernel)⟩

end EquationText
