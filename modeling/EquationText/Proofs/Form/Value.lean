import EquationText.Proofs.Form.Exact
import Mathlib.Tactic.FieldSimp
import Mathlib.Tactic.LinearCombination

/-! # The values of forms

An assignment gives every unknown a complex number, and a form then has a value
(`EquationText.Form.value`). On exact forms the operations are those of the values. Solving a form
for an unknown gives the values at which the form vanishes (`EquationText.Form.eq_value_solvedFor_iff`),
and substituting what an unknown stands for changes no value (`EquationText.Form.value_substitute`).
-/

namespace EquationText

/-- A complex number for every unknown. -/
abbrev Assignment : Type := Unknown → ℂ

namespace Form

/-- The sum of some terms at an assignment. -/
noncomputable def termsValue (assignment : Assignment) (terms : List (Unknown × Number)) : ℂ :=
  (terms.map fun term => term.2.toComplex * assignment term.1).sum

/-- The value of a form at an assignment. -/
noncomputable def value (assignment : Assignment) (form : Form) : ℂ :=
  form.constant.toComplex + termsValue assignment form.terms

/-- Whether no part of a number in the form counts as zero without being zero. -/
def IsClear (cutoff : Rat) (form : Form) : Prop :=
  form.constant.IsClear cutoff ∧ ∀ term ∈ form.terms, term.2.IsClear cutoff

instance (cutoff : Rat) (form : Form) : Decidable (form.IsClear cutoff) :=
  inferInstanceAs (Decidable (_ ∧ _))

/-- The value of what is dropped from a form because it counts as zero. -/
noncomputable def dropped (cutoff : Rat) (assignment : Assignment) (form : Form) : ℂ :=
  form.value assignment - (form.simplify cutoff).value assignment

section Terms

variable (assignment : Assignment)

@[simp]
theorem termsValue_nil : termsValue assignment [] = 0 := rfl

@[simp]
theorem termsValue_cons (term : Unknown × Number) (terms : List (Unknown × Number)) :
    termsValue assignment (term :: terms) =
      term.2.toComplex * assignment term.1 + termsValue assignment terms := by
  simp [termsValue]

theorem termsValue_consTerm (unknown : Unknown) (a : Number) (terms : List (Unknown × Number)) :
    termsValue assignment (consTerm unknown a terms) =
      a.toComplex * assignment unknown + termsValue assignment terms := by
  by_cases zero : a.isZero = true
  · rw [consTerm, if_pos zero, (Number.isZero_iff a).mp zero, zero_mul, zero_add]
  · rw [consTerm, if_neg zero]
    exact termsValue_cons assignment (unknown, a) terms

/-- Merged terms have the sum of the values of both lists; what cancels has the value zero. -/
theorem termsValue_addTerms {first second : List (Unknown × Number)} (left : ExactTerms first)
    (right : ExactTerms second) :
    termsValue assignment (addTerms first second) =
      termsValue assignment first + termsValue assignment second := by
  induction first, second using addTerms.induct with
  | case1 second => simp [addTerms]
  | case2 first _ => simp [addTerms]
  | case3 u a first b second ih =>
      rw [addTerms, if_pos rfl, termsValue_consTerm, ih left.tail right.tail,
        Number.toComplex_add left.head_exact right.head_exact, termsValue_cons, termsValue_cons]
      ring
  | case4 u a first v b second different before ih =>
      rw [addTerms, if_neg different, if_pos before, termsValue_cons, ih left.tail right,
        termsValue_cons assignment (u, a) first, add_assoc]
  | case5 u a first v b second different after ih =>
      rw [addTerms, if_neg different, if_neg after, termsValue_cons, ih left right.tail,
        termsValue_cons assignment (v, b) second, add_left_comm]

theorem termsValue_scaleTerms {factor : Number} (number : factor.isExact = true)
    {terms : List (Unknown × Number)} (exact : ExactTerms terms) :
    termsValue assignment (scaleTerms factor terms) =
      termsValue assignment terms * factor.toComplex := by
  induction terms with
  | nil => simp [scaleTerms]
  | cons term rest ih =>
      rw [scaleTerms, termsValue_consTerm, ih exact.tail,
        Number.toComplex_mul exact.head_exact number, termsValue_cons]
      ring

theorem termsValue_map_neg (terms : List (Unknown × Number)) :
    termsValue assignment (terms.map fun term => (term.1, term.2.neg)) =
      -termsValue assignment terms := by
  induction terms with
  | nil => simp
  | cons term rest ih =>
      rw [List.map_cons, termsValue_cons, ih, Number.toComplex_neg, termsValue_cons]
      ring

theorem termsValue_simplifyTerms {cutoff : Rat} {terms : List (Unknown × Number)}
    (clear : ∀ term ∈ terms, term.2.IsClear cutoff) :
    termsValue assignment (simplifyTerms cutoff terms) = termsValue assignment terms := by
  induction terms with
  | nil => rfl
  | cons term rest ih =>
      have first := clear term (List.mem_cons_self ..)
      have others := ih fun other member => clear other (List.mem_cons_of_mem _ member)
      rw [simplifyTerms_cons, termsValue_consTerm, others, Number.toComplex_chop first, termsValue_cons]

variable {assignment} in
theorem termsValue_congr {other : Assignment} {terms : List (Unknown × Number)}
    (same : ∀ unknown ∈ terms.map Prod.fst, assignment unknown = other unknown) :
    termsValue assignment terms = termsValue other terms := by
  induction terms with
  | nil => rfl
  | cons term rest ih =>
      rw [termsValue_cons, termsValue_cons, same term.1 (List.mem_cons_self ..),
        ih fun unknown member => same unknown (List.mem_cons_of_mem _ member)]

/-- The value of some terms is that of one term and of those of the other unknowns. -/
theorem termsValue_filter {terms : List (Unknown × Number)} (exact : ExactTerms terms)
    {unknown : Unknown} {a : Number} (member : (unknown, a) ∈ terms) :
    termsValue assignment terms = a.toComplex * assignment unknown +
      termsValue assignment (terms.filter fun term => term.1 ≠ unknown) := by
  induction terms with
  | nil => cases member
  | cons term rest ih =>
      rcases List.mem_cons.mp member with rfl | inside
      · have absent : rest.filter (fun term => term.1 ≠ unknown) = rest := by
          refine List.filter_eq_self.mpr fun other later => decide_eq_true ?_
          exact (Unknown.ne_of_before (exact.head_before (List.mem_map_of_mem later))).symm
        rw [List.filter_cons_of_neg (by simp), absent, termsValue_cons]
      · have different : term.1 ≠ unknown :=
          Unknown.ne_of_before (exact.head_before (List.mem_map_of_mem inside))
        rw [List.filter_cons_of_pos (by simpa using different), termsValue_cons, termsValue_cons,
          ih exact.tail inside]
        ring

end Terms

variable {assignment : Assignment} {a b form : Form}

@[simp]
theorem value_ofNumber (number : Number) : (ofNumber number).value assignment = number.toComplex := by
  simp [value, ofNumber]

@[simp]
theorem value_ofUnknown (unknown : Unknown) :
    (ofUnknown unknown).value assignment = assignment unknown := by
  simp [value, ofUnknown]

theorem value_of_isConstant (constant : form.isConstant = true) :
    form.value assignment = form.constant.toComplex := by
  rw [value, (isConstant_iff form).mp constant, termsValue_nil, add_zero]

theorem value_add (first : a.IsExact) (second : b.IsExact) :
    (a.add b).value assignment = a.value assignment + b.value assignment := by
  rw [value, add, Number.toComplex_add first.constant second.constant,
    termsValue_addTerms assignment first.terms second.terms, value, value]
  ring

theorem value_scale (exact : form.IsExact) {factor : Number} (number : factor.isExact = true) :
    (form.scale factor).value assignment = form.value assignment * factor.toComplex := by
  rw [value, scale, Number.toComplex_mul exact.constant number,
    termsValue_scaleTerms assignment number exact.terms, value]
  ring

theorem value_div (exact : form.IsExact) {divisor : Number} (number : divisor.isExact = true) :
    (form.div divisor).value assignment = form.value assignment / divisor.toComplex := by
  rw [exact.div_eq_scale number, value_scale exact (Number.isExact_inv number), Number.toComplex_inv number,
    div_eq_mul_inv]

theorem value_neg (form : Form) : form.neg.value assignment = -form.value assignment := by
  rw [value, neg, Number.toComplex_neg, termsValue_map_neg, value]
  ring

theorem value_sub (first : a.IsExact) (second : b.IsExact) :
    (a.sub b).value assignment = a.value assignment - b.value assignment := by
  rw [sub, value_add first second.neg, value_neg, sub_eq_add_neg]

/-- Dropping what counts as zero changes no value of a clear form. -/
theorem value_simplify {cutoff : Rat} (clear : form.IsClear cutoff) :
    (form.simplify cutoff).value assignment = form.value assignment := by
  rw [value, simplify, Number.toComplex_chop clear.1,
    termsValue_simplifyTerms assignment clear.2, value]

theorem dropped_eq_zero {cutoff : Rat} (clear : form.IsClear cutoff) :
    form.dropped cutoff assignment = 0 :=
  sub_eq_zero.mpr (value_simplify clear).symm

theorem value_simplify_of_dropped {cutoff : Rat} (nothing : form.dropped cutoff assignment = 0) :
    (form.simplify cutoff).value assignment = form.value assignment :=
  (sub_eq_zero.mp nothing).symm

theorem value_congr {other : Assignment}
    (same : ∀ unknown ∈ form.unknowns, assignment unknown = other unknown) :
    form.value assignment = form.value other := by
  rw [value, value, termsValue_congr same]

theorem value_erase (exact : form.IsExact) {unknown : Unknown} {factor : Number}
    (member : (unknown, factor) ∈ form.terms) :
    form.value assignment =
      factor.toComplex * assignment unknown + (form.erase unknown).value assignment := by
  rw [value, termsValue_filter assignment exact.terms member, value, erase]
  ring

theorem value_substitute (exact : form.IsExact) (value : a.IsExact) {unknown : Unknown}
    (stands : assignment unknown = a.value assignment) :
    (form.substitute unknown a).value assignment = form.value assignment := by
  by_cases mentioned : form.mentions unknown = true
  · have member := mem_terms_coefficient ((mentions_iff form unknown).mp mentioned)
    have number := exact.terms.exact _ member
    rw [substitute, if_pos mentioned, value_add (exact.erase unknown) (value.scale number),
      value_scale value number, value_erase exact member, stands]
    ring
  · rw [substitute, if_neg mentioned]

/-- An unknown has the value that a form solved for it has exactly where the form vanishes. -/
theorem eq_value_solvedFor_iff (exact : form.IsExact) {unknown : Unknown} {factor : Number}
    (member : (unknown, factor) ∈ form.terms) :
    assignment unknown = (form.solvedFor unknown factor).value assignment ↔
      form.value assignment = 0 := by
  have number := exact.terms.exact _ member
  have nonzero := exact.terms.toComplex_ne_zero member
  rw [solvedFor, value_div (exact.erase unknown).neg number, value_neg, value_erase exact member]
  constructor
  · intro solved
    rw [solved]
    field_simp
    ring
  · intro vanishes
    field_simp
    linear_combination vanishes

/-- Changing one unknown of a form moves its value by a multiple of the change. -/
theorem value_update (exact : form.IsExact) {unknown : Unknown} {factor : Number}
    (member : (unknown, factor) ∈ form.terms) (z : ℂ) :
    form.value (Function.update assignment unknown z) =
      factor.toComplex * z + (form.erase unknown).value assignment := by
  rw [value_erase exact member, Function.update_self]
  congr 1
  refine value_congr fun other inside => Function.update_of_ne ?_ _ _
  exact (mem_unknowns_erase.mp inside).2

/-- An exact form that is not constant takes every value, by a change of one of its unknowns. -/
theorem exists_value_update_eq (exact : form.IsExact) {unknown : Unknown}
    (member : unknown ∈ form.unknowns) (assignment : Assignment) (z : ℂ) :
    ∃ w, form.value (Function.update assignment unknown w) = z := by
  have inside := mem_terms_coefficient member
  have nonzero := exact.terms.toComplex_ne_zero inside
  refine ⟨(z - (form.erase unknown).value assignment) / (form.coefficient unknown).toComplex, ?_⟩
  rw [value_update exact inside]
  field_simp
  ring

end Form

end EquationText
