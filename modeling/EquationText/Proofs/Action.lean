import EquationText.Action
import Mathlib.Tactic.Common

/-! # Runs of actions

A run of an action gives a result and what it leaves. These lemmas take the run of a sequence apart,
into the runs of its parts for a given result, and carry over to the whole what every part keeps true
of the state, however it ends (`EquationText.Action.Keeps`) or when it succeeds
(`EquationText.Action.Yields`).
-/

namespace EquationText

@[simp]
theorem except_ok_bind {α β : Type} (a : α) (next : α → Except Cause β) :
    ((.ok a : Except Cause α) >>= next) = next a := rfl

@[simp]
theorem except_error_bind {α β : Type} (cause : Cause) (next : α → Except Cause β) :
    ((.error cause : Except Cause α) >>= next) = .error cause := rfl

theorem except_bind_eq_ok {α β : Type} {first : Except Cause α} {next : α → Except Cause β} {b : β}
    (ok : (first >>= next) = .ok b) : ∃ a, first = .ok a ∧ next a = .ok b := by
  cases first with
  | error cause => cases ok
  | ok a => exact ⟨a, rfl, ok⟩

theorem except_bind_eq_error {α β : Type} {first : Except Cause α} {next : α → Except Cause β}
    {cause : Cause} (error : (first >>= next) = .error cause) :
    first = .error cause ∨ ∃ a, first = .ok a ∧ next a = .error cause := by
  cases first with
  | error found =>
      cases error
      exact .inl rfl
  | ok a => exact .inr ⟨a, rfl, error⟩

namespace Action

variable {σ τ α β : Type} {before after : Traced σ}

@[simp]
theorem run_report (level : Level) (source : Source) (message : String) :
    (report level source message : Action σ Unit) before =
      (.ok (), ⟨before.state, before.log.push ⟨level, source, message⟩⟩) := rfl

@[simp]
theorem run_modify (change : σ → σ) :
    modify change before = (.ok (), ⟨change before.state, before.log⟩) := rfl

@[simp]
theorem run_get : (get : Action σ σ) before = (.ok before.state, before) := rfl

theorem run_bind_of_ok {first : Action σ α} {next : α → Action σ β} {a : α}
    (ok : first before = (.ok a, after)) : (first >>= next) before = next a after := by
  simp only [bind, ok]

theorem run_bind_of_error {first : Action σ α} {next : α → Action σ β} {fault : Fault}
    (error : first before = (.error fault, after)) :
    (first >>= next) before = (.error fault, after) := by
  simp only [bind, error]

theorem run_bind_congr {first other : Action σ α} {next : α → Action σ β} {middle : Traced σ}
    (same : first before = other middle) : (first >>= next) before = (other >>= next) middle := by
  simp only [bind, same]

theorem bind_assoc {γ : Type} (first : Action σ α) (second : α → Action σ β) (third : β → Action σ γ) :
    ((first >>= second) >>= third) = (first >>= fun a => second a >>= third) := by
  funext before
  rcases run : first before with ⟨fault | a, middle⟩
  · rw [run_bind_of_error run, run_bind_of_error (run_bind_of_error run)]
  · rw [run_bind_of_ok run]
    exact run_bind_congr (run_bind_of_ok run)

theorem run_bind_eq_ok {first : Action σ α} {next : α → Action σ β} {b : β}
    (ok : (first >>= next) before = (.ok b, after)) :
    ∃ a middle, first before = (.ok a, middle) ∧ next a middle = (.ok b, after) := by
  rcases run : first before with ⟨_ | a, middle⟩
  · rw [run_bind_of_error run] at ok
    cases ok
  · rw [run_bind_of_ok run] at ok
    exact ⟨a, middle, rfl, ok⟩

theorem run_bind_eq_error {first : Action σ α} {next : α → Action σ β} {fault : Fault}
    (error : (first >>= next) before = (.error fault, after)) :
    first before = (.error fault, after) ∨
      ∃ a middle, first before = (.ok a, middle) ∧ next a middle = (.error fault, after) := by
  rcases run : first before with ⟨found | a, middle⟩
  · rw [run_bind_of_error run] at error
    cases error
    exact .inl rfl
  · rw [run_bind_of_ok run] at error
    exact .inr ⟨a, middle, rfl, error⟩

theorem run_ofExcept_eq_ok {computation : Except Cause α} {a : α}
    (ok : (ofExcept computation : Action σ α) before = (.ok a, after)) :
    computation = .ok a ∧ after = before := by
  cases computation with
  | error cause => cases ok
  | ok found =>
      cases ok
      exact ⟨rfl, rfl⟩

theorem run_ofExcept_eq_error {computation : Except Cause α} {fault : Fault}
    (error : (ofExcept computation : Action σ α) before = (.error fault, after)) :
    computation = .error fault.cause ∧ fault = fault.cause.unplaced ∧ after = before := by
  cases computation with
  | error cause =>
      cases error
      exact ⟨rfl, rfl, rfl⟩
  | ok found => cases error

/-- Whether an action keeps a property of the state, however it ends. -/
def Keeps (P : σ → Prop) (action : Action σ α) : Prop :=
  ∀ before, P before.state → P (action before).2.state

namespace Keeps

variable {P : σ → Prop}

theorem of_pure (a : α) : Keeps P (pure a : Action σ α) := fun _ holds => holds

theorem of_failWith (cause : Cause) : Keeps P (failWith cause : Action σ α) := fun _ holds => holds

theorem of_ofExcept (computation : Except Cause α) :
    Keeps P (ofExcept computation : Action σ α) := by
  intro before holds
  cases computation <;> exact holds

theorem of_get : Keeps P (get : Action σ σ) := fun _ holds => holds

theorem of_report (level : Level) (source : Source) (message : String) :
    Keeps P (report level source message : Action σ Unit) := fun _ holds => holds

theorem of_modify {change : σ → σ} (kept : ∀ state, P state → P (change state)) :
    Keeps P (modify change) := fun before => kept before.state

theorem bind {first : Action σ α} {next : α → Action σ β} (left : Keeps P first)
    (right : ∀ a, Keeps P (next a)) : Keeps P (first >>= next) := by
  intro before holds
  have start := left before holds
  rcases run : first before with ⟨_ | a, middle⟩
  · rw [run_bind_of_error run]
    rwa [run] at start
  · rw [run_bind_of_ok run]
    rw [run] at start
    exact right a middle start

theorem of_fail (fault : Fault) : Keeps P (fail fault : Action σ α) := fun _ holds => holds

theorem of_set {state : σ} (holds : P state) : Keeps P (set state) := fun _ _ => holds

/-- What comes after reading the state may rely on the property of it. -/
theorem bind_get {next : σ → Action σ β} (right : ∀ state, P state → Keeps P (next state)) :
    Keeps P ((get : Action σ σ) >>= next) := fun before holds => right before.state holds before holds

theorem onFault {action : Action σ α} {afterwards : Fault → σ → Fault × σ} (keeps : Keeps P action)
    (kept : ∀ fault state, P state → P (afterwards fault state).2) :
    Keeps P (action.onFault afterwards) := by
  intro before holds
  have inner := keeps before holds
  unfold Action.onFault
  rcases run : action before with ⟨fault | a, middle⟩
  · rw [run] at inner
    exact kept fault middle.state inner
  · rwa [run] at inner

theorem andFinally {action : Action σ α} {change : σ → σ} (keeps : Keeps P action)
    (kept : ∀ state, P state → P (change state)) : Keeps P (action.andFinally change) :=
  fun before holds => kept _ (keeps before holds)

end Keeps

/-- Whether an action that starts with a property of the state and succeeds keeps it, and gives a
result with a property of its own. -/
def Yields (P : σ → Prop) (Q : α → Prop) (action : Action σ α) : Prop :=
  ∀ before a after, P before.state → action before = (.ok a, after) → P after.state ∧ Q a

/-- A property that an action keeps however it ends is kept when it succeeds. -/
theorem Keeps.yields {P : σ → Prop} {action : Action σ α} (keeps : Keeps P action) :
    Yields P (fun _ => True) action := by
  intro before a after holds run
  have kept := keeps before holds
  rw [run] at kept
  exact ⟨kept, trivial⟩

namespace Yields

variable {P : σ → Prop} {Q : α → Prop} {R : β → Prop}

theorem of_pure {a : α} (result : Q a) : Yields P Q (pure a : Action σ α) := by
  intro before found after holds run
  cases run
  exact ⟨holds, result⟩

theorem of_fail (fault : Fault) : Yields P Q (fail fault : Action σ α) := by
  intro before a after holds run
  cases run

theorem of_failWith (cause : Cause) : Yields P Q (failWith cause : Action σ α) := of_fail _

theorem of_ofExcept {computation : Except Cause α} (result : ∀ a, computation = .ok a → Q a) :
    Yields P Q (ofExcept computation : Action σ α) := by
  intro before a after holds run
  obtain ⟨ok, rfl⟩ := run_ofExcept_eq_ok run
  exact ⟨holds, result a ok⟩

theorem of_get : Yields P P (get : Action σ σ) := by
  intro before state after holds run
  cases run
  exact ⟨holds, holds⟩

theorem of_set {state : σ} (holds : P state) : Yields P (fun _ => True) (set state) := by
  intro before _ after _ run
  cases run
  exact ⟨holds, trivial⟩

theorem of_modify {change : σ → σ} (kept : ∀ state, P state → P (change state)) :
    Yields P (fun _ => True) (modify change) := (Keeps.of_modify kept).yields

theorem of_report (level : Level) (source : Source) (message : String) :
    Yields P (fun _ => True) (report level source message : Action σ Unit) :=
  (Keeps.of_report level source message).yields

theorem bind {first : Action σ α} {next : α → Action σ β} (left : Yields P Q first)
    (right : ∀ a, Q a → Yields P R (next a)) : Yields P R (first >>= next) := by
  intro before b after holds run
  obtain ⟨a, middle, firstRun, nextRun⟩ := run_bind_eq_ok run
  obtain ⟨kept, result⟩ := left before a middle holds firstRun
  exact right a result middle b after kept nextRun

theorem onFault {action : Action σ α} (yields : Yields P Q action)
    (afterwards : Fault → σ → Fault × σ) : Yields P Q (action.onFault afterwards) := by
  intro before a after holds run
  unfold Action.onFault at run
  rcases inner : action before with ⟨_ | found, middle⟩
  · rw [inner] at run
    cases run
  · rw [inner] at run
    cases run
    exact yields _ _ _ holds inner

theorem andFinally {action : Action σ α} {change : σ → σ} (yields : Yields P Q action)
    (kept : ∀ state, P state → P (change state)) : Yields P Q (action.andFinally change) := by
  intro before a after holds run
  unfold Action.andFinally at run
  rcases inner : action before with ⟨_ | found, middle⟩
  · rw [inner] at run
    cases run
  · rw [inner] at run
    cases run
    obtain ⟨state, result⟩ := yields _ _ _ holds inner
    exact ⟨kept _ state, result⟩

/-- What an action on a part of the state keeps, the action on the whole state keeps of that part. -/
theorem within {action : Action σ α} {part : τ → σ} {replace : σ → τ → τ} {whole : τ → Prop}
    (yields : Yields P Q action) (inside : ∀ state, whole state → P (part state))
    (replaced : ∀ state changed, whole state → P changed → whole (replace changed state)) :
    Yields whole Q (action.within part replace) := by
  intro before a after holds run
  unfold Action.within at run
  rcases inner : action ⟨part before.state, before.log⟩ with ⟨_ | found, middle⟩
  · rw [inner] at run
    cases run
  · rw [inner] at run
    cases run
    obtain ⟨state, result⟩ := yields _ _ _ (inside _ holds) inner
    exact ⟨replaced _ _ holds state, result⟩

end Yields

end Action

end EquationText
