import EquationText.Form.Describe
import EquationText.Proofs.Action

/-! # Printing

Only two things keep a form from having a text: a precision that the number format does not take, and a
modulus beyond the range of doubles (`EquationText.Style.form_error`), which always does
(`EquationText.Style.not_modulusOverflows_of_form`).
-/

namespace EquationText

namespace Style

variable {style : Style} {cause : Cause}

theorem digits_error (error : style.digits = .error cause) : ∃ fault, cause = .usage fault := by
  unfold digits at error
  repeat' split at error
  all_goals cases error
  all_goals exact ⟨_, rfl⟩

theorem double_error {d : Double} (error : style.double d = .error cause) :
    style.digits = .error cause := by
  unfold double at error
  split at error
  · cases error
  · rcases except_bind_eq_error error with failed | ⟨_, _, done⟩
    · exact failed
    · cases done

theorem imaginary_error {y : Double} (error : style.imaginary y = .error cause) :
    style.digits = .error cause := by
  unfold imaginary at error
  split at error
  · cases error
  · rcases except_bind_eq_error error with failed | ⟨_, _, done⟩
    · exact double_error failed
    · cases done

/-- A complex number is refused only where the number format does not take the number of digits. -/
theorem complex_error {re im : Double} (error : style.complex re im = .error cause) :
    style.digits = .error cause := by
  unfold complex at error
  split at error
  · exact double_error error
  split at error
  · split at error
    · cases error
    · exact imaginary_error error
  rcases except_bind_eq_error error with failed | ⟨real, _, later⟩
  · exact double_error failed
  split at later
  · rcases except_bind_eq_error later with failed | ⟨_, _, done⟩
    · exact imaginary_error failed
    · cases done
  · rcases except_bind_eq_error later with failed | ⟨_, _, done⟩
    · exact imaginary_error failed
    · cases done

theorem number_error {a : Number} (error : style.number a = .error cause) :
    style.digits = .error cause :=
  complex_error error

theorem coefficient_error {a : Number} (error : style.coefficient a = .error cause) :
    style.digits = .error cause := by
  rcases except_bind_eq_error error with failed | ⟨text, _, later⟩
  · exact number_error failed
  · split at later
    · cases later
    · cases later

/-- A term is refused where the number format does not take the number of digits, or for the modulus of its
coefficient. -/
theorem term_error {name : String} {a : Number} (error : style.term name a = .error cause) :
    style.digits = .error cause ∨ cause = .modulusRange ∧ a.modulusOverflows = true := by
  by_cases beyond : a.modulusOverflows = true
  · rw [term, if_pos beyond] at error
    cases error
    exact .inr ⟨rfl, beyond⟩
  · rw [term, if_neg beyond] at error
    split at error
    · cases error
    split at error
    · cases error
    rcases except_bind_eq_error error with failed | ⟨_, _, done⟩
    · exact .inl (coefficient_error failed)
    · cases done

/-- Terms are refused where one of them is. -/
theorem terms_error {word : String} {terms : List (Unknown × Number)}
    (error : style.terms word terms = .error cause) :
    style.digits = .error cause ∨
      cause = .modulusRange ∧ ∃ term ∈ terms, term.2.modulusOverflows = true := by
  induction terms with
  | nil => cases error
  | cons term rest ih =>
      rcases except_bind_eq_error error with first | ⟨text, _, later⟩
      · rcases term_error first with digits | ⟨rfl, beyond⟩
        · exact .inl digits
        · exact .inr ⟨rfl, term, List.mem_cons_self .., beyond⟩
      · rcases except_bind_eq_error later with others | ⟨texts, _, done⟩
        · rcases ih others with digits | ⟨rfl, found, member, beyond⟩
          · exact .inl digits
          · exact .inr ⟨rfl, found, List.mem_cons_of_mem _ member, beyond⟩
        · cases done

theorem constant_error {a : Number} (error : style.constant a = .error cause) :
    style.digits = .error cause ∨ cause = .modulusRange ∧ a.modulusOverflows = true := by
  by_cases beyond : a.modulusOverflows = true
  · rw [constant, if_pos beyond] at error
    cases error
    exact .inr ⟨rfl, beyond⟩
  · rw [constant, if_neg beyond] at error
    split at error
    · cases error
    rcases except_bind_eq_error error with failed | ⟨_, _, done⟩
    · exact .inl (number_error failed)
    · cases done

/-- What keeps a form from having a text. -/
theorem form_error {word : String} {form : Form} (error : style.form word form = .error cause) :
    style.digits = .error cause ∨ cause = .modulusRange ∧
      (form.constant.modulusOverflows = true ∨ form.someModulusOverflows = true) := by
  rcases except_bind_eq_error error with first | ⟨constant, _, later⟩
  · exact (constant_error first).imp id fun beyond => ⟨beyond.1, .inl beyond.2⟩
  · rcases except_bind_eq_error later with others | ⟨texts, _, done⟩
    · rcases terms_error others with digits | ⟨rfl, term, member, beyond⟩
      · exact .inl digits
      · exact .inr ⟨rfl, .inr (List.any_eq_true.mpr ⟨term, member, beyond⟩)⟩
    · split at done
      · cases done
      · cases done

theorem not_modulusOverflows_of_term {name : String} {a : Number} {text : Option String}
    (ok : style.term name a = .ok text) : ¬ a.modulusOverflows = true := by
  intro beyond
  rw [term, if_pos beyond] at ok
  cases ok

/-- What has a text has no modulus beyond the range of doubles. -/
theorem not_modulusOverflows_of_form {word text : String} {form : Form}
    (ok : style.form word form = .ok text) :
    ¬ (form.constant.modulusOverflows = true ∨ form.someModulusOverflows = true) := by
  have terms : ∀ (terms : List (Unknown × Number)) (texts : List String),
      style.terms word terms = .ok texts → ∀ term ∈ terms, ¬ term.2.modulusOverflows = true := by
    intro terms
    induction terms with
    | nil => exact fun _ _ => List.forall_mem_nil _
    | cons term rest ih =>
        intro texts ok
        obtain ⟨first, termOk, ok⟩ := except_bind_eq_ok ok
        obtain ⟨others, restOk, _⟩ := except_bind_eq_ok ok
        exact List.forall_mem_cons.mpr ⟨not_modulusOverflows_of_term termOk, ih others restOk⟩
  obtain ⟨first, constantOk, ok⟩ := except_bind_eq_ok ok
  obtain ⟨others, termsOk, _⟩ := except_bind_eq_ok ok
  rintro (beyond | beyond)
  · rw [constant, if_pos beyond] at constantOk
    cases constantOk
  · obtain ⟨term, member, termBeyond⟩ := List.any_eq_true.mp beyond
    exact terms _ _ termsOk term member termBeyond

/-- Whether the number format takes the precision. -/
def IsPrintable (style : Style) : Prop := 0 ≤ style.precision ∧ style.precision ≤ maxPrecision

instance (style : Style) : Decidable style.IsPrintable := inferInstanceAs (Decidable (_ ∧ _))

theorem digits_of_isPrintable (printable : style.IsPrintable) :
    style.digits = .ok style.precision.toNat := by
  obtain ⟨low, high⟩ := printable
  have written : ¬ maxWrittenPrecision < style.precision := by
    simp only [maxPrecision, maxWrittenPrecision] at *
    omega
  rw [digits, if_neg (by omega), if_neg written, if_neg (by omega)]

/-- With a precision that is taken, only a modulus beyond the range of doubles keeps a form from having a
text. -/
theorem form_error_of_isPrintable (printable : style.IsPrintable) {word : String} {form : Form}
    (error : style.form word form = .error cause) : cause = .modulusRange := by
  rcases form_error error with digits | ⟨same, _⟩
  · rw [digits_of_isPrintable printable] at digits
    cases digits
  · exact same

end Style

end EquationText
