import EquationText.Proofs.Fault

/-! # Comparing runs

Two actions that are started in related states are compared in how they end
(`EquationText.Comparison.Relates`): both succeed, or both stop with related faults, and leave related
states. A comparison may let one of the two runs stop alone with certain faults; nothing is said of the
other run then. There is one rule for each way to build an action, and the logs are never compared.
-/

namespace EquationText

/-- How two runs are compared: by their states and their faults, and with the faults that may stop the first
or the second one alone. -/
structure Comparison (σ τ : Type) where
  states : σ → τ → Prop
  faults : Fault → Fault → Prop
  left : Fault → Prop
  right : Fault → Prop

/-- Whether an action leaves the state as it is, and stops with some faults only. -/
def Action.IsQuiet {σ α : Type} (P : Fault → Prop) (action : Action σ α) : Prop :=
  ∀ before, (action before).2.state = before.state ∧
    ∀ fault, (action before).1 = .error fault → P fault

namespace Comparison

variable {σ τ σ' τ' α β γ δ : Type} {C : Comparison σ τ}

variable (C) in
/-- Whether two runs end alike, or one of them stops with a fault that may stop it alone. -/
inductive Ends (results : α → β → Prop) :
    Except Fault α × Traced σ → Except Fault β × Traced τ → Prop
  | ok {a : α} {b : β} {after : Traced σ} {other : Traced τ} (result : results a b)
      (states : C.states after.state other.state) : Ends results (.ok a, after) (.ok b, other)
  | error {fault found : Fault} {after : Traced σ} {other : Traced τ} (faults : C.faults fault found)
      (states : C.states after.state other.state) : Ends results (.error fault, after) (.error found, other)
  | left {fault : Fault} {after : Traced σ} {other : Except Fault β × Traced τ} (alone : C.left fault) :
      Ends results (.error fault, after) other
  | right {fault : Fault} {after : Traced τ} {other : Except Fault α × Traced σ} (alone : C.right fault) :
      Ends results other (.error fault, after)

/-- Runs that end alike also end alike in a comparison that asks for less. -/
theorem Ends.mono {D : Comparison σ τ} {results : α → β → Prop} {run : Except Fault α × Traced σ}
    {other : Except Fault β × Traced τ} (ends : C.Ends results run other)
    (states : ∀ state found, C.states state found → D.states state found)
    (faults : ∀ fault found, C.faults fault found → D.faults fault found)
    (left : ∀ fault, C.left fault → D.left fault) (right : ∀ fault, C.right fault → D.right fault) :
    D.Ends results run other := by
  cases ends with
  | ok result related => exact .ok result (states _ _ related)
  | error same related => exact .error (faults _ _ same) (states _ _ related)
  | left alone => exact .left (left _ alone)
  | right alone => exact .right (right _ alone)

variable (C) in
/-- Whether two actions end alike from related states. -/
def Relates (results : α → β → Prop) (first : Action σ α) (second : Action τ β) : Prop :=
  ∀ before other, C.states before.state other.state → C.Ends results (first before) (second other)

variable (C) in
/-- Whether two computations without effects give related results, or stop with related faults. -/
inductive Alike (results : α → β → Prop) : Except Cause α → Except Cause β → Prop
  | ok {a : α} {b : β} (result : results a b) : Alike results (.ok a) (.ok b)
  | error {cause found : Cause} (faults : C.faults cause.unplaced found.unplaced) :
      Alike results (.error cause) (.error found)

theorem Alike.bind {results : α → β → Prop} {later : γ → δ → Prop} {first : Except Cause α}
    {second : Except Cause β} {next : α → Except Cause γ} {other : β → Except Cause δ}
    (alike : C.Alike results first second)
    (right : ∀ a b, results a b → C.Alike later (next a) (other b)) :
    C.Alike later (first >>= next) (second >>= other) := by
  cases alike with
  | ok result => exact right _ _ result
  | error faults => exact .error faults

namespace Relates

variable {results : α → β → Prop} {later : γ → δ → Prop}

theorem of_pure {a : α} {b : β} (result : results a b) : C.Relates results (pure a) (pure b) :=
  fun _ _ related => .ok result related

theorem of_fail {fault found : Fault} (faults : C.faults fault found) :
    C.Relates results (Action.fail fault) (Action.fail found) := fun _ _ related => .error faults related

theorem of_failWith {cause found : Cause} (faults : C.faults cause.unplaced found.unplaced) :
    C.Relates results (Action.failWith cause) (Action.failWith found) := of_fail faults

theorem of_ofExcept {first : Except Cause α} {second : Except Cause β}
    (alike : C.Alike results first second) :
    C.Relates results (Action.ofExcept first) (Action.ofExcept second) := by
  cases alike with
  | ok result => exact of_pure result
  | error faults => exact of_failWith faults

theorem of_get : C.Relates C.states Action.get Action.get := fun _ _ related => .ok related related

theorem of_set {state : σ} {other : τ} (related : C.states state other) :
    C.Relates (fun _ _ => True) (Action.set state) (Action.set other) := fun _ _ _ => .ok trivial related

theorem of_modify {change : σ → σ} {other : τ → τ}
    (related : ∀ state found, C.states state found → C.states (change state) (other found)) :
    C.Relates (fun _ _ => True) (Action.modify change) (Action.modify other) :=
  fun _ _ start => .ok trivial (related _ _ start)

theorem of_report {level otherLevel : Level} {source otherSource : Source} {message other : String} :
    C.Relates (fun _ _ => True) (Action.report level source message)
      (Action.report otherLevel otherSource other) := fun _ _ related => .ok trivial related

/-- Two actions after one another run alike if both do; the second may use the results of the first. -/
theorem bind {first : Action σ α} {second : Action τ β} {next : α → Action σ γ}
    {other : β → Action τ δ}
    (left : C.Relates results first second)
    (right : ∀ a b, results a b → C.Relates later (next a) (other b)) :
    C.Relates later (first >>= next) (second >>= other) := by
  intro before found related
  have ends := left before found related
  simp only [Bind.bind]
  generalize first before = result at ends ⊢
  generalize second found = otherResult at ends ⊢
  cases ends with
  | ok result states => exact right _ _ result _ _ states
  | error faults states => exact .error faults states
  | left alone => exact .left alone
  | right alone => exact .right alone

/-- Actions on parts of the states are compared as they are on these parts. -/
theorem within {D : Comparison σ' τ'} {first : Action σ α} {second : Action τ β} {part : σ' → σ}
    {replace : σ → σ' → σ'} {otherPart : τ' → τ} {otherReplace : τ → τ' → τ'}
    (relates : C.Relates results first second)
    (inside : ∀ state other, D.states state other → C.states (part state) (otherPart other))
    (replaced : ∀ state other changed found, D.states state other → C.states changed found →
      D.states (replace changed state) (otherReplace found other))
    (faults : ∀ fault found, C.faults fault found → D.faults fault found)
    (left : ∀ fault, C.left fault → D.left fault) (right : ∀ fault, C.right fault → D.right fault) :
    D.Relates results (first.within part replace) (second.within otherPart otherReplace) := by
  intro before other related
  have ends := relates ⟨part before.state, before.log⟩ ⟨otherPart other.state, other.log⟩
    (inside _ _ related)
  unfold Action.within
  generalize first ⟨part before.state, before.log⟩ = result at ends ⊢
  generalize second ⟨otherPart other.state, other.log⟩ = otherResult at ends ⊢
  cases ends with
  | ok result states => exact .ok result (replaced _ _ _ _ related states)
  | error same states => exact .error (faults _ _ same) (replaced _ _ _ _ related states)
  | left alone => exact .left (left _ alone)
  | right alone => exact .right (right _ alone)

/-- A change at the end is made whether the action succeeds or not, so that it has to keep the states alike. -/
theorem andFinally {first : Action σ α} {second : Action τ β} {change : σ → σ} {other : τ → τ}
    (relates : C.Relates results first second)
    (related : ∀ state found, C.states state found → C.states (change state) (other found)) :
    C.Relates results (first.andFinally change) (second.andFinally other) := by
  intro before found start
  have ends := relates before found start
  unfold Action.andFinally
  generalize first before = result at ends ⊢
  generalize second found = otherResult at ends ⊢
  cases ends with
  | ok result states => exact .ok result (related _ _ states)
  | error same states => exact .error same (related _ _ states)
  | left alone => exact .left alone
  | right alone => exact .right alone

/-- What is done after a fault keeps related faults related, and keeps a fault that may stop one run
alone. -/
theorem onFault {first : Action σ α} {second : Action τ β} {afterwards : Fault → σ → Fault × σ}
    {other : Fault → τ → Fault × τ} (relates : C.Relates results first second)
    (faults : ∀ fault found state otherState, C.faults fault found → C.states state otherState →
      C.faults (afterwards fault state).1 (other found otherState).1 ∧
        C.states (afterwards fault state).2 (other found otherState).2)
    (left : ∀ fault state, C.left fault → C.left (afterwards fault state).1)
    (right : ∀ fault state, C.right fault → C.right (other fault state).1) :
    C.Relates results (first.onFault afterwards) (second.onFault other) := by
  intro before found start
  have ends := relates before found start
  unfold Action.onFault
  generalize first before = result at ends ⊢
  generalize second found = otherResult at ends ⊢
  cases ends with
  | ok result states => exact .ok result states
  | error same states =>
      obtain ⟨placed, kept⟩ := faults _ _ _ _ same states
      exact .error placed kept
  | left alone => exact .left (left _ _ alone)
  | right alone => exact .right (right _ _ alone)

/-- An action without effects may be left out in the second run. -/
theorem pure_right {first : Action σ α} {b : β} (quiet : first.IsQuiet C.left)
    (result : ∀ a, results a b) :
    C.Relates results first (pure b) := by
  intro before other related
  obtain ⟨same, stops⟩ := quiet before
  rcases run : first before with ⟨fault | a, after⟩ <;> rw [run] at same stops
  · exact .left (stops fault rfl)
  · exact .ok (result a) (same ▸ related)

/-- An action without effects may be left out in the first run. -/
theorem pure_left {second : Action τ β} {a : α} (quiet : second.IsQuiet C.right)
    (result : ∀ b, results a b) :
    C.Relates results (pure a) second := by
  intro before other related
  obtain ⟨same, stops⟩ := quiet other
  rcases run : second other with ⟨fault | b, after⟩ <;> rw [run] at same stops
  · exact .right (stops fault rfl)
  · exact .ok (result b) (same ▸ related)

end Relates

end Comparison

namespace Action.IsQuiet

variable {σ α β : Type} {P : Fault → Prop}

theorem of_pure (a : α) : IsQuiet P (pure a : Action σ α) := fun _ => ⟨rfl, nofun⟩

theorem of_report {level : Level} {source : Source} {message : String} :
    IsQuiet P (report level source message : Action σ Unit) := fun _ => ⟨rfl, nofun⟩

theorem of_ofExcept {computation : Except Cause α}
    (stops : ∀ cause, computation = .error cause → P cause.unplaced) :
    IsQuiet P (ofExcept computation : Action σ α) := by
  intro before
  cases computation with
  | ok a => exact ⟨rfl, nofun⟩
  | error cause => exact ⟨rfl, by rintro _ ⟨⟩; exact stops cause rfl⟩

theorem bind {first : Action σ α} {next : α → Action σ β} (left : IsQuiet P first)
    (right : ∀ a, IsQuiet P (next a)) : IsQuiet P (first >>= next) := by
  intro before
  obtain ⟨same, stops⟩ := left before
  rcases run : first before with ⟨fault | a, middle⟩ <;> rw [run] at same stops
  · rw [run_bind_of_error run]
    exact ⟨same, by rintro _ ⟨⟩; exact stops fault rfl⟩
  · rw [run_bind_of_ok run]
    obtain ⟨later, laterStops⟩ := right a middle
    exact ⟨later.trans same, laterStops⟩

end Action.IsQuiet

end EquationText
