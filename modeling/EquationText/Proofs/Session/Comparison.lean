import EquationText.Proofs.Session.Simulation
import EquationText.Proofs.Solver.Comparison
import EquationText.Report

/-! # Comparing sessions

Two sessions whose engines do the same end alike when they carry out the same steps
(`EquationText.Engine.performAll_relates`), the first ones on lines further down and after some earlier
output. How many statements were carried out makes no difference.
-/

namespace EquationText

variable {σ ν : Type}

/-- Whether an engine does the same from states that are compared, and answers references alike, with equal
texts if that is asked for. -/
structure Engine.Compares (engine : Engine σ ν) (C : Comparison σ σ) (sameTexts : Bool) : Prop where
  hasRoom : ∀ state other wanted, C.states state other →
    engine.hasRoom state wanted = engine.hasRoom other wanted
  solve : ∀ value, C.Relates (fun _ _ => True) (engine.solve value) (engine.solve value)
  command : ∀ name payload,
    C.Relates (fun _ _ => True) (engine.command name payload) (engine.command name payload)
  translate : ∀ state other reference, C.states state other →
    C.Alike (fun text found => sameTexts = true → text = found) (engine.translate state reference)
      (engine.translate other reference)
  faults : ∀ fault found, C.faults fault found → fault = found ∧ fault.line = none
  left : ∀ fault, C.left fault → fault.cause.isReported = false
  right : ∀ fault, C.right fault → fault.cause.isReported = false

/-- The linear engine compares with itself, whatever differs between the two solvers in what they report. -/
theorem linearEngine_compares (settings : Settings) (flags : Bool × Bool) (samePrecision : Bool) :
    (linearEngine settings).Compares (Solver.comparison Eq flags samePrecision) samePrecision where
  hasRoom a b wanted same := by
    change a.hasRoom wanted = b.hasRoom wanted
    rw [Solver.hasRoom, Solver.hasRoom, same.closed, same.maxDepth]
  solve := Solver.solve_relates Eq flags samePrecision
  command := Solver.command_relates Eq flags samePrecision
  translate _ _ reference same := Solver.Matches.translate_alike same reference
  faults _ _ same := same
  left := by
    rintro _ ⟨rfl, _⟩
    rfl
  right := by
    rintro _ ⟨rfl, _⟩
    rfl

/-- Whether two sessions are at the same place with engine states that are compared, the first one after
some earlier output if the texts are to be the same. -/
structure Session.Matches (C : Comparison σ σ) (earlier : String) (sameTexts : Bool)
    (session other : Session σ ν) : Prop where
  engine : C.states session.engine other.engine
  stack : session.stack = other.stack
  lastOperator : session.lastOperator = other.lastOperator
  phase : session.phase = other.phase
  output : sameTexts = true → session.output = earlier ++ other.output

/-- The comparison of two sessions, the first of which is `lines` further down in its document. -/
def Comparison.ofSessions (C : Comparison σ σ) (earlier : String) (sameTexts : Bool) (lines : Nat) :
    Comparison (Session σ ν) (Session σ ν) where
  states := Session.Matches C earlier sameTexts
  faults fault found := fault = found.movedDown lines
  left := C.left
  right := C.right

namespace Engine

variable {engine : Engine σ ν} {C : Comparison σ σ} {earlier : String} {sameTexts : Bool} {lines : Nat}

/-- Whether an action of sessions ends alike from sessions that match. -/
abbrev EndsAlike (C : Comparison σ σ) (earlier : String) (sameTexts : Bool) (lines : Nat) {α : Type}
    (first second : Action (Session σ ν) α) : Prop :=
  (C.ofSessions earlier sameTexts lines).Relates (fun _ _ => True) first second

/-- An engine that does the same from states that are compared goes along with itself. -/
theorem Compares.simulates {S : Simulation σ σ ν ν} (compares : engine.Compares S.engines S.sameTexts)
    (values : S.values = Eq) : engine.Simulates engine S where
  hasRoom state other wanted same := .inl (compares.hasRoom state other wanted same)
  named _ := values ▸ rfl
  anonymous := values ▸ rfl
  number _ := values ▸ rfl
  construct operator operands others _ related := by
    rw [values, List.forall₂_eq_eq_eq] at related
    rw [values, related]
    cases engine.construct operator others with
    | ok value => exact .ok rfl
    | error cause => exact .error rfl
  solve value other related := by
    rw [values] at related
    exact related ▸ compares.solve value
  translate := compares.translate
  faults := compares.faults
  left fault line alone := by rwa [Fault.placedAt, compares.left fault alone]
  right fault line alone := by rwa [Fault.placedAt, compares.right fault alone]

/-- The steps of a document and the same steps further down end alike. -/
theorem performAll_relates (compares : engine.Compares C sameTexts) (steps : List Step) :
    EndsAlike C earlier sameTexts lines (engine.performAll (steps.map (·.movedDown lines)))
      (engine.performAll steps) := by
  intro before other same
  let S : Simulation σ σ ν ν :=
    ⟨C, Eq, sameTexts, earlier, before.state.statements - other.state.statements, lines⟩
  have simulates : engine.Simulates engine S := Compares.simulates compares rfl
  have answered : ∀ step : Step, step.IsAnsweredAlike engine engine S := by
    intro step
    cases step with
    | command line name payload => exact compares.command name payload
    | _ => trivial
  have start : S.Matches before.state other.state :=
    { engine := same.engine
      stack := by
        rw [show S.values = Eq from rfl, List.forall₂_eq_eq_eq, same.stack]
      lastOperator := same.lastOperator
      phase := same.phase
      statements := by simp only [S]; omega
      output := same.output }
  have ends := performAll_simulates simulates (fun step (_ : step ∈ steps) => answered step) before
    other start
  refine ends.mono (fun state found matched => ?_) (fun _ _ same => same) (fun _ alone => alone)
    fun _ alone => alone
  have held : state.stack.topFirst = found.stack.topFirst := by
    rw [← List.forall₂_eq_eq_eq]
    exact matched.stack
  exact ⟨matched.engine, congrArg OperandStack.mk held, matched.lastOperator, matched.phase,
    matched.output⟩

end Engine

end EquationText
