import EquationText.Proofs.Form.Value

/-! # Forms and the range of doubles

A form is in range when its constant is within the range of doubles, together with its modulus, and no
coefficient has a modulus beyond it. Dropping what counts as zero takes no form out of range
(`EquationText.Form.IsInRange.simplify`), does not change a clear exact form
(`EquationText.Form.simplify_eq_self`), and leaves a pivot unless it leaves a constant
(`EquationText.Form.pivot?_simplify_ne_none`).
-/

namespace EquationText

namespace Form

/-- Whether the constant of a form and the moduli of its numbers are within the range of doubles. -/
def IsInRange (form : Form) : Prop :=
  form.constant.IsInRange ∧ form.someModulusOverflows = false

instance (form : Form) : Decidable form.IsInRange := inferInstanceAs (Decidable (_ ∧ _))

variable {form : Form} {cutoff : Rat} {terms : List (Unknown × Number)}

theorem simplifyTerms_moduli (within : ∀ term ∈ terms, term.2.modulusOverflows = false) :
    ∀ term ∈ simplifyTerms cutoff terms, term.2.modulusOverflows = false := by
  intro term member
  obtain ⟨old, known, rfl, _⟩ := exists_of_mem_simplifyTerms member
  exact Number.modulusOverflows_chop (within old known)

theorem someModulusOverflows_eq_false_iff :
    form.someModulusOverflows = false ↔
      ∀ term ∈ form.terms, term.2.modulusOverflows = false := by
  simp [someModulusOverflows]

theorem IsInRange.simplify (inRange : form.IsInRange) : (form.simplify cutoff).IsInRange := by
  obtain ⟨⟨finite, modulus⟩, moduli⟩ := inRange
  refine ⟨⟨Number.isFinite_chop finite, Number.modulusOverflows_chop modulus⟩, ?_⟩
  rw [someModulusOverflows_eq_false_iff] at moduli ⊢
  exact simplifyTerms_moduli moduli

theorem simplifyTerms_eq_self (exact : ExactTerms terms)
    (clear : ∀ term ∈ terms, term.2.IsClear cutoff) : simplifyTerms cutoff terms = terms := by
  induction terms with
  | nil => rfl
  | cons term rest ih =>
      obtain ⟨here, later⟩ := List.forall_mem_cons.mp clear
      have nonzero := exact.nonzero term (List.mem_cons_self ..)
      rw [simplifyTerms_cons, ih exact.tail later, Number.chop_eq_self_of_isClear exact.head_exact here,
        consTerm, nonzero, if_neg Bool.false_ne_true]

/-- Nothing is dropped from a clear exact form. -/
theorem simplify_eq_self (exact : form.IsExact) (clear : form.IsClear cutoff) :
    form.simplify cutoff = form := by
  rw [simplify, Number.chop_eq_self_of_isClear exact.constant clear.1,
    simplifyTerms_eq_self exact.terms clear.2]

/-! ## The pivot of a simplified form -/

theorem simplifyTerms_magnitude {cutoff : Rat} (positive : 0 < cutoff)
    {terms : List (Unknown × Number)} :
    ∀ term ∈ simplifyTerms cutoff terms, 0 < term.2.magnitude := by
  intro term member
  obtain ⟨old, _, rfl, nonzero⟩ := exists_of_mem_simplifyTerms member
  exact Number.magnitude_chop_pos positive nonzero

/-- A simplified form that is not constant has a pivot. -/
theorem pivot?_simplify_ne_none {cutoff : Rat} (positive : 0 < cutoff) {form : Form}
    (mentions : ¬ (form.simplify cutoff).isConstant = true) :
    (form.simplify cutoff).pivot? ≠ none := by
  rw [isConstant_iff] at mentions
  obtain ⟨term, member⟩ := List.exists_mem_of_ne_nil _ mentions
  exact pivot?_ne_none member (simplifyTerms_magnitude positive term member)

end Form

end EquationText
