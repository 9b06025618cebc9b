import EquationText.Proofs.Document
import EquationText.Proofs.Session.Comparison

/-! # Documents with and without reports

Whether the linear engine reports, and with which of the usual precisions it prints, makes no difference to
how a document ends and to what is solved, except that an engine that reports may be stopped where it cannot
describe something (`EquationText.process_reporting`).
-/

namespace EquationText

/-- The session with an engine that reports or not, and prints with some precision. -/
def Session.reporting (session : SolverSession) (verbose : Bool) (precision : Int) : SolverSession :=
  { session with engine := { session.engine with verbose, precision } }

/-- Solvers that match differ in reporting and in the precision only. -/
theorem Solver.Matches.eq_reporting {flags : Bool × Bool} {samePrecision : Bool} {a b : Solver}
    (same : a.Matches Eq flags samePrecision b) :
    a = { b with verbose := a.verbose, precision := a.precision } := by
  obtain ⟨known, solved, created, maxDepth, closed⟩ := same
  cases a
  cases b
  simp_all

/-- A document ends alike on engines that are compared, or one of the two runs stops alone. -/
theorem Engine.process_alike {σ ν : Type} {engine : Engine σ ν} {C : Comparison σ σ} {sameTexts : Bool}
    (compares : engine.Compares C sameTexts) (settings : Settings) (filename text : String)
    (before other : Traced (Session σ ν))
    (start : Session.Matches C "" sameTexts before.state.forDocument other.state.forDocument) :
    (engine.process settings filename text before).1 = (engine.process settings filename text other).1 ∧
        Session.Matches C "" sameTexts (engine.process settings filename text before).2.state
          (engine.process settings filename text other).2.state ∨
      (∃ fault, (engine.process settings filename text before).1 = .error fault ∧ C.left fault) ∨
      ∃ fault, (engine.process settings filename text other).1 = .error fault ∧ C.right fault := by
  have alike : EndsAlike C "" sameTexts 0
      (engine.performAll ((documentSteps settings text).map (·.movedDown 0)))
      (engine.performAll (documentSteps settings text)) := performAll_relates compares _
  simp only [Step.movedDown_zero, List.map_id'] at alike
  have ended := alike ⟨before.state.forDocument, before.log⟩ ⟨other.state.forDocument, other.log⟩ start
  obtain ⟨firstResult, firstState⟩ := process_eq engine settings filename text before
  obtain ⟨secondResult, secondState⟩ := process_eq engine settings filename text other
  rw [firstResult, firstState, secondResult, secondState]
  generalize engine.performAll (documentSteps settings text) ⟨before.state.forDocument, before.log⟩ = run
    at ended ⊢
  generalize engine.performAll (documentSteps settings text) ⟨other.state.forDocument, other.log⟩ = otherRun
    at ended ⊢
  cases ended with
  | ok _ states => exact .inl ⟨rfl, states⟩
  | error faults states => exact .inl ⟨by rw [faults, Fault.movedDown_zero], states⟩
  | left alone => exact .inr (.inl ⟨_, rfl, alone⟩)
  | right alone => exact .inr (.inr ⟨_, rfl, alone⟩)

/-- Two variants of a session match at the start of a document. -/
theorem Session.reporting_matches (session : SolverSession) (firstVerbose secondVerbose : Bool)
    {firstPrecision secondPrecision : Int} (firstUsual : Solver.IsUsualPrecision firstPrecision)
    (secondUsual : Solver.IsUsualPrecision secondPrecision) :
    Session.Matches
      (Solver.comparison Eq (firstVerbose, secondVerbose) (decide (firstPrecision = secondPrecision)))
      "" (decide (firstPrecision = secondPrecision))
      (session.reporting firstVerbose firstPrecision).forDocument
      (session.reporting secondVerbose secondPrecision).forDocument where
  engine :=
    { known := rfl
      solved := rfl
      created := rfl
      maxDepth := rfl
      closed := rfl
      verbose := .inr rfl
      precision := of_decide_eq_true
      usual := .inr ⟨firstUsual, secondUsual⟩ }
  stack := rfl
  lastOperator := rfl
  phase := rfl
  output _ := rfl

/-- Two engines that differ in reporting and in the precision only, both precisions being usual ones, end a
document alike: with the same success or fault, the same stack, and engines that differ in nothing else; if
the precisions are the same, so are the outputs and the texts of all solved names and references. The only
exception is that one of them reports and is stopped by a modulus beyond the range of doubles. -/
theorem process_reporting (settings : Settings) (filename text : String) (session : SolverSession)
    (firstVerbose secondVerbose : Bool) {firstPrecision secondPrecision : Int}
    (firstUsual : Solver.IsUsualPrecision firstPrecision)
    (secondUsual : Solver.IsUsualPrecision secondPrecision)
    (firstLog secondLog : Array Entry) :
    let first := (linearEngine settings).process settings filename text
      ⟨session.reporting firstVerbose firstPrecision, firstLog⟩
    let second := (linearEngine settings).process settings filename text
      ⟨session.reporting secondVerbose secondPrecision, secondLog⟩
    (first.1 = second.1 ∧ first.2.state.stack = second.2.state.stack ∧
        first.2.state.engine = { second.2.state.engine with
          verbose := first.2.state.engine.verbose, precision := first.2.state.engine.precision } ∧
        (firstPrecision = secondPrecision → first.2.state.output = second.2.state.output ∧
          first.2.state.engine.bindings settings = second.2.state.engine.bindings settings ∧
          ∀ reference, first.2.state.engine.translate settings reference =
            second.2.state.engine.translate settings reference)) ∨
      firstVerbose = true ∧ secondVerbose = false ∧ first.1 = .error Cause.modulusRange.unplaced ∨
      firstVerbose = false ∧ secondVerbose = true ∧ second.1 = .error Cause.modulusRange.unplaced := by
  intro first second
  have start := session.reporting_matches firstVerbose secondVerbose firstUsual secondUsual
  have compares := linearEngine_compares settings (firstVerbose, secondVerbose)
    (decide (firstPrecision = secondPrecision))
  rcases Engine.process_alike compares settings filename text
    ⟨session.reporting firstVerbose firstPrecision, firstLog⟩
    ⟨session.reporting secondVerbose secondPrecision, secondLog⟩ start with
    ⟨same, states⟩ | ⟨fault, stopped, rfl, alone⟩ | ⟨fault, stopped, rfl, alone⟩
  · refine .inl ⟨same, states.stack, states.engine.eq_reporting, fun equal => ?_⟩
    have precision := states.engine.precision (decide_eq_true equal)
    exact ⟨(states.output (decide_eq_true equal)).trans String.empty_append,
      Solver.bindings_congr states.engine.solved precision,
      Solver.translate_congr states.engine.solved precision⟩
  · obtain ⟨rfl, rfl⟩ := Prod.mk.inj alone
    exact .inr (.inl ⟨rfl, rfl, stopped⟩)
  · obtain ⟨rfl, rfl⟩ := Prod.mk.inj alone
    exact .inr (.inr ⟨rfl, rfl, stopped⟩)

/-- A document with two equations and commands for reports and for the precision. -/
def withCommands : String :=
  "\x7b\x7b @digits 3; x + y = 10/3 \x7d\x7d\n\x7b\x7b @verbose; x - y = 1/3; @show x \x7d\x7d x"

/-- The document binds the same names in the same order with reports and five digits from the start as
without them and with fourteen. -/
theorem process_reporting_withCommands :
    let first := (linearEngine {}).process {} "<string>" withCommands
      ⟨freshSession.state.reporting true 5, #[]⟩
    first.1 = .ok () ∧ first.2.state.engine.solved.map Prod.fst = ["y", "x"] := by
  intro first
  have accepted : first.1 = .ok () := by decide +kernel
  have five : Solver.IsUsualPrecision 5 := ⟨by decide, by decide⟩
  have fourteen : Solver.IsUsualPrecision 14 := ⟨by decide, by decide⟩
  rcases process_reporting {} "<string>" withCommands freshSession.state true false five fourteen #[] #[] with
    ⟨_, _, engine, _⟩ | ⟨_, _, stopped⟩ | ⟨same, _⟩
  · refine ⟨accepted, (congrArg (fun solver => solver.solved.map Prod.fst) engine).trans ?_⟩
    decide +kernel
  · rw [show first.1 = _ from stopped] at accepted
    cases accepted
  · cases same

/-- A document with an equation whose sides can be printed only as far as the modulus of a number fits. -/
def largeModulus : String := "\x7b\x7b x = 1.7e308 + 1.7e308*i \x7d\x7d"

/-- With reports the document is stopped where the right side is described; without them it is accepted. -/
theorem reporting_stops_largeModulus :
    ((linearEngine {}).process {} "<string>" largeModulus ⟨freshSession.state.reporting true 14, #[]⟩).1 =
        .error Cause.modulusRange.unplaced ∧
      ((linearEngine {}).process {} "<string>" largeModulus
        ⟨freshSession.state.reporting false 14, #[]⟩).1 = .ok () := by
  decide +kernel

end EquationText
