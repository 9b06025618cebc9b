import EquationText.Proofs.Form.Value

/-! # How forms change between assignments

The values of a form at two assignments are some way apart (`EquationText.Form.gap`), whatever its
constant is. The operations on forms act on these gaps as they do on values without constants.
-/

namespace EquationText

variable {first second : Assignment}

namespace Form

/-- How far apart the values of a form at two assignments are. -/
noncomputable def gap (first second : Assignment) (form : Form) : ℂ :=
  form.value first - form.value second

variable {a b form : Form} {cutoff : Rat}

theorem gap_of_isConstant (constant : form.isConstant = true) : form.gap first second = 0 := by
  rw [gap, value_of_isConstant constant, value_of_isConstant constant, sub_self]

@[simp]
theorem gap_ofUnknown (unknown : Unknown) :
    (ofUnknown unknown).gap first second = first unknown - second unknown := by
  rw [gap, value_ofUnknown, value_ofUnknown]

theorem gap_neg (form : Form) : form.neg.gap first second = -form.gap first second := by
  rw [gap, value_neg, value_neg, gap]
  ring

theorem gap_add (left : a.IsExact) (right : b.IsExact) :
    (a.add b).gap first second = a.gap first second + b.gap first second := by
  rw [gap, value_add left right, value_add left right, gap, gap]
  ring

theorem gap_sub (left : a.IsExact) (right : b.IsExact) :
    (a.sub b).gap first second = a.gap first second - b.gap first second := by
  rw [sub, gap_add left right.neg, gap_neg, sub_eq_add_neg]

theorem gap_scale (exact : form.IsExact) {factor : Number} (number : factor.isExact = true) :
    (form.scale factor).gap first second = form.gap first second * factor.toComplex := by
  rw [gap, value_scale exact number, value_scale exact number, gap]
  ring

theorem gap_div (exact : form.IsExact) {divisor : Number} (number : divisor.isExact = true) :
    (form.div divisor).gap first second = form.gap first second / divisor.toComplex := by
  rw [gap, value_div exact number, value_div exact number, gap]
  ring

/-- A form that loses the same at two assignments keeps its gap. -/
theorem gap_simplify (alike : form.dropped cutoff first = form.dropped cutoff second) :
    (form.simplify cutoff).gap first second = form.gap first second := by
  rw [dropped, dropped] at alike
  rw [gap, gap]
  linear_combination -alike

/-- Substituting for an unknown what changes as it does keeps the gap of a form. -/
theorem gap_substitute (exact : form.IsExact) (value : a.IsExact) {unknown : Unknown}
    (stands : first unknown - second unknown = a.gap first second) :
    (form.substitute unknown a).gap first second = form.gap first second := by
  by_cases mentioned : form.mentions unknown = true
  · have member := mem_terms_coefficient ((mentions_iff form unknown).mp mentioned)
    have number := exact.terms.exact _ member
    rw [substitute, if_pos mentioned, gap_add (exact.erase unknown) (value.scale number),
      gap_scale value number, ← stands, gap, gap, value_erase exact member,
      value_erase exact member]
    ring
  · rw [substitute, if_neg mentioned]

/-- Where a form keeps its value, an unknown changes as the form does that is solved for it. -/
theorem gap_solvedFor (exact : form.IsExact) {unknown : Unknown} {factor : Number}
    (member : (unknown, factor) ∈ form.terms) (same : form.gap first second = 0) :
    (form.solvedFor unknown factor).gap first second = first unknown - second unknown := by
  have number := exact.terms.exact _ member
  have nonzero := exact.terms.toComplex_ne_zero member
  rw [gap, value_erase exact member, value_erase exact member] at same
  rw [solvedFor, gap_div (exact.erase unknown).neg number, gap_neg, gap]
  field_simp
  linear_combination -same

end Form

end EquationText
