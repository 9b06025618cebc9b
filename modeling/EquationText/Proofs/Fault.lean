import EquationText.Proofs.Action

/-! # How computations stop

Some faults guard against misuse: a statement that is not one equation, or is begun inside another one, an
operator without operands, an equation below an operator, an application of something that is no name
(`EquationText.Cause.isMisuse`). The ordinary faults are the reported ones among the others, and that of a
modulus beyond the range of doubles (`EquationText.Cause.isOrdinary`); those of a solver are some of them
(`EquationText.Cause.isOfSolver`). Which causes a computation stops with is known from its parts
(`EquationText.StopsWith.bind`, `EquationText.Action.Confines.bind`).
-/

namespace EquationText

/-- Whether a fault guards against misuse: of the operand stack, of a session, or of the solver. -/
def Cause.isMisuse : Cause → Bool
  | operands _ | reading (.statementOpen _) | reading .malformedStatement
  | solving .notAnEquation | solving .equationAsValue | solving .illFormed
  | solving .malformedApplication => true
  | _ => false

/-- Whether a fault is one that documents can lead to. -/
abbrev Cause.IsExpected (cause : Cause) : Prop := cause.isMisuse = false

/-- Whether a fault is a reported one or a modulus beyond the range of doubles, and does not guard against
misuse. -/
def Cause.isOrdinary (cause : Cause) : Bool :=
  !cause.isMisuse && (cause.isReported || decide (cause = .modulusRange))

/-- Whether a fault is an ordinary one. -/
abbrev Cause.IsOrdinary (cause : Cause) : Prop := cause.isOrdinary = true

/-- Whether a fault is one of a solver: a solving fault that does not guard against misuse, or a modulus beyond
the range of doubles. -/
def Cause.isOfSolver : Cause → Bool
  | solving fault => !(solving fault).isMisuse
  | modulusRange => true
  | _ => false

/-- Whether a fault is one of a solver. -/
abbrev Cause.IsOfSolver (cause : Cause) : Prop := cause.isOfSolver = true

theorem Cause.IsOfSolver.isOrdinary {cause : Cause} (ofSolver : cause.IsOfSolver) : cause.IsOrdinary := by
  cases cause with
  | solving fault =>
      have expected : (solving fault).isMisuse = false := by
        simpa [Cause.IsOfSolver, Cause.isOfSolver] using ofSolver
      have reported : (solving fault).isReported = true := rfl
      simp [Cause.IsOrdinary, Cause.isOrdinary, expected, reported]
  | modulusRange => rfl
  | _ => cases ofSolver

theorem Cause.IsOrdinary.isExpected {cause : Cause} (ordinary : cause.IsOrdinary) : cause.IsExpected := by
  simpa using (Bool.and_eq_true_iff.mp ordinary).1

theorem Cause.IsOrdinary.eq_modulusRange {cause : Cause} (ordinary : cause.IsOrdinary)
    (unreported : cause.isReported = false) : cause = .modulusRange := by
  simpa [unreported] using (Bool.and_eq_true_iff.mp ordinary).2

/-! ## Computations -/

/-- Whether a computation that stops does so with a cause of some kind. -/
def StopsWith {α : Type} (P : Cause → Prop) (computation : Except Cause α) : Prop :=
  ∀ cause, computation = .error cause → P cause

namespace StopsWith

variable {α β : Type} {P : Cause → Prop}

theorem of_ok (a : α) : StopsWith P (.ok a) := nofun

theorem of_error {cause : Cause} (holds : P cause) : StopsWith P (.error cause : Except Cause α) := by
  intro found same
  cases same
  exact holds

theorem bind {first : Except Cause α} {next : α → Except Cause β} (left : StopsWith P first)
    (right : ∀ a, StopsWith P (next a)) : StopsWith P (first >>= next) := by
  intro cause error
  rcases except_bind_eq_error error with failed | ⟨a, _, failed⟩
  · exact left cause failed
  · exact right a cause failed

end StopsWith

/-- Whether an action that starts with a property of the state keeps it however it ends, and stops with a
cause of some kind if it does not succeed. -/
def Action.Confines {σ α : Type} (S : σ → Prop) (P : Cause → Prop) (action : Action σ α) : Prop :=
  ∀ before, S before.state → S (action before).2.state ∧
    ∀ fault, (action before).1 = .error fault → P fault.cause

namespace Action.Confines

variable {σ τ α β : Type} {S : σ → Prop} {P : Cause → Prop}

theorem of_pure (a : α) : Confines S P (pure a : Action σ α) := fun _ holds => ⟨holds, nofun⟩

theorem of_get : Confines S P (get : Action σ σ) := fun _ holds => ⟨holds, nofun⟩

theorem of_modify {change : σ → σ} (kept : ∀ state, S state → S (change state)) :
    Confines S P (modify change) := fun _ holds => ⟨kept _ holds, nofun⟩

theorem of_report (level : Level) (source : Source) (message : String) :
    Confines S P (report level source message : Action σ Unit) := fun _ holds => ⟨holds, nofun⟩

theorem of_failWith {cause : Cause} (kind : P cause) : Confines S P (failWith cause : Action σ α) := by
  refine fun before holds => ⟨holds, fun fault failed => ?_⟩
  cases failed
  exact kind

theorem of_ofExcept {computation : Except Cause α} (stops : StopsWith P computation) :
    Confines S P (ofExcept computation : Action σ α) := by
  cases computation with
  | ok a => exact of_pure a
  | error cause => exact of_failWith (stops cause rfl)

theorem bind {first : Action σ α} {next : α → Action σ β} (left : Confines S P first)
    (right : ∀ a, Confines S P (next a)) : Confines S P (first >>= next) := by
  intro before holds
  have start := left before holds
  rcases run : first before with ⟨fault | a, middle⟩ <;> rw [run] at start
  · rw [run_bind_of_error run]
    refine ⟨start.1, fun found failed => ?_⟩
    cases failed
    exact start.2 fault rfl
  · rw [run_bind_of_ok run]
    exact right a middle start.1

/-- What comes after reading the state may rely on the property of it. -/
theorem bind_get {next : σ → Action σ β} (right : ∀ state, S state → Confines S P (next state)) :
    Confines S P ((get : Action σ σ) >>= next) := fun before holds => right before.state holds before holds

theorem within {action : Action σ α} {part : τ → σ} {replace : σ → τ → τ} {whole : τ → Prop}
    (confines : Confines S P action) (inside : ∀ state, whole state → S (part state))
    (replaced : ∀ state changed, whole state → S changed → whole (replace changed state)) :
    Confines whole P (action.within part replace) := by
  intro before holds
  obtain ⟨kept, kind⟩ := confines ⟨part before.state, before.log⟩ (inside _ holds)
  exact ⟨replaced _ _ holds kept, kind⟩

theorem andFinally {action : Action σ α} {change : σ → σ} (confines : Confines S P action)
    (kept : ∀ state, S state → S (change state)) : Confines S P (action.andFinally change) := by
  intro before holds
  obtain ⟨inner, kind⟩ := confines before holds
  exact ⟨kept _ inner, kind⟩

end Action.Confines

end EquationText
