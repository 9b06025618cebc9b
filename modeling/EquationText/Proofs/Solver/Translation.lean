import EquationText.Proofs.Form.Printing
import EquationText.Proofs.Solver.Known
import EquationText.Solver

/-! # The texts of solved names

What a solver answers depends on its solved names and its precision only
(`EquationText.Solver.bindings_congr`). With a precision that the number format takes, all the solved
names have texts (`EquationText.Solver.exists_bindings`).
-/

namespace EquationText

namespace Solver

variable {settings : Settings} {a b solver : Solver}

section Congruence

variable (solved : a.solved = b.solved) (precision : a.precision = b.precision)
include solved precision

theorem translate_congr (reference : String) :
    a.translate settings reference = b.translate settings reference := by
  unfold translate style
  rw [solved, precision]

theorem translateAll_congr (names : List String) :
    a.translateAll settings names = b.translateAll settings names := by
  induction names with
  | nil => rfl
  | cons name rest ih => rw [translateAll, translateAll, translate_congr solved precision, ih]

theorem bindings_congr : a.bindings settings = b.bindings settings := by
  rw [bindings, bindings, translateAll_congr solved precision, solved]

end Congruence

/-- Only a precision that the number format does not take leaves a reference without an answer. -/
theorem translate_error {reference : String} {cause : Cause}
    (error : solver.translate settings reference = .error cause) :
    (solver.style settings).digits = .error cause := by
  have written : ∀ {computation : Except Cause String},
      computation.map some = .error cause → computation = .error cause := by
    intro computation error
    cases computation with
    | error found =>
        cases error
        rfl
    | ok text => cases error
  unfold translate at error
  simp only at error
  split at error
  · split at error
    · cases error
    · exact Style.number_error (written error)
  · split at error
    · cases error
    · exact Style.double_error (written error)
  · split at error
    · cases error
    · exact Style.double_error (written error)

/-- Whether a precision is one that documents can set. -/
def IsUsualPrecision (precision : Int) : Prop := 1 ≤ precision ∧ precision ≤ 17

theorem isUsualPrecision_of_accepted {precision : Int}
    (accepted : (1 ≤ precision && precision ≤ 17) = true) : IsUsualPrecision precision := by
  simpa [IsUsualPrecision] using accepted

theorem isPrintable_of_isUsualPrecision {style : Style} (usual : IsUsualPrecision style.precision) :
    style.IsPrintable := by
  obtain ⟨low, high⟩ := usual
  simp only [Style.IsPrintable, Style.maxPrecision]
  omega

/-- With a usual precision every reference has an answer. -/
theorem exists_translate (settings : Settings) (usual : IsUsualPrecision solver.precision)
    (reference : String) : ∃ text, solver.translate settings reference = .ok text := by
  cases answer : solver.translate settings reference with
  | ok text => exact ⟨text, rfl⟩
  | error cause =>
      have refused := translate_error answer
      rw [Style.digits_of_isPrintable (isPrintable_of_isUsualPrecision usual)] at refused
      cases refused

theorem translateAll_error {names : List String} {cause : Cause}
    (error : solver.translateAll settings names = .error cause) :
    (solver.style settings).digits = .error cause := by
  induction names with
  | nil => cases error
  | cons name rest ih =>
      rcases except_bind_eq_error error with failed | ⟨text, _, later⟩
      · exact translate_error failed
      · rcases except_bind_eq_error later with others | ⟨_, _, done⟩
        · exact ih others
        · cases done

/-- The texts of some names are listed with the names, in order. -/
theorem translateAll_ok {names : List String} {bindings : List Binding}
    (ok : solver.translateAll settings names = .ok bindings) :
    bindings.map Prod.fst = names ∧
      ∀ entry ∈ bindings, solver.translate settings entry.1 = .ok entry.2 := by
  induction names generalizing bindings with
  | nil =>
      cases ok
      exact ⟨rfl, by simp⟩
  | cons name rest ih =>
      obtain ⟨text, here, ok⟩ := except_bind_eq_ok ok
      obtain ⟨others, later, ok⟩ := except_bind_eq_ok ok
      cases ok
      obtain ⟨same, texts⟩ := ih later
      exact ⟨by rw [List.map_cons, same], List.forall_mem_cons.mpr ⟨here, texts⟩⟩

/-- The answer for a name that selects no part is the text of its number. -/
theorem translate_whole {name : String} {number : Number} (whole : select name = .whole name)
    (found : valueOf? name solver.solved = some number) {text : Option String}
    (ok : solver.translate settings name = .ok text) :
    ∃ printed, (solver.style settings).number number = .ok printed ∧ text = some printed := by
  unfold translate at ok
  simp only [whole, found] at ok
  cases printed : (solver.style settings).number number with
  | error cause =>
      rw [printed] at ok
      cases ok
  | ok answer =>
      rw [printed] at ok
      cases ok
      exact ⟨answer, rfl, rfl⟩

/-- The name that a reference asks for, or for a part of whose value it asks. -/
def Selection.name : Selection → String
  | whole name | real name | imaginary name => name

/-- A reference is looked up by the name that it asks for, and some part of the value is written. -/
theorem exists_translate_eq (settings : Settings) (solver : Solver) (reference : String) :
    ∃ written : Number → Except Cause String, solver.translate settings reference =
      match valueOf? (select reference).name solver.solved with
      | none => .ok none
      | some value => (written value).map some := by
  unfold translate
  cases select reference with
  | whole name => exact ⟨_, rfl⟩
  | real name => exact ⟨fun value => (solver.style settings).double value.re.toDouble, rfl⟩
  | imaginary name => exact ⟨fun value => (solver.style settings).double value.im.toDouble, rfl⟩

/-- A reference to a name that is not solved has no text, not even for a part of the value. -/
theorem translate_of_not_solved {reference : String}
    (unsolved : valueOf? (select reference).name solver.solved = none) :
    solver.translate settings reference = .ok none := by
  obtain ⟨written, same⟩ := exists_translate_eq settings solver reference
  rw [same, unsolved]

/-- A reference without a text is one to a name that is not solved. -/
theorem not_solved_of_translate {reference : String} (answer : solver.translate settings reference = .ok none) :
    valueOf? (select reference).name solver.solved = none := by
  obtain ⟨written, same⟩ := exists_translate_eq settings solver reference
  rw [same] at answer
  cases found : valueOf? (select reference).name solver.solved with
  | none => rfl
  | some value =>
      rw [found] at answer
      cases text : written value with
      | error cause =>
          simp only [text] at answer
          cases answer
      | ok printed =>
          simp only [text] at answer
          cases answer

/-- With a precision that the number format takes, every solved name is bound. -/
theorem exists_bindings (printable : (solver.style settings).IsPrintable) :
    ∃ bindings, solver.bindings settings = .ok bindings := by
  cases listed : solver.bindings settings with
  | ok bindings => exact ⟨bindings, rfl⟩
  | error cause =>
      have refused := translateAll_error listed
      rw [Style.digits_of_isPrintable printable] at refused
      cases refused

end Solver

end EquationText
