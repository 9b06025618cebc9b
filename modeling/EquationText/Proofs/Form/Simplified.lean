import EquationText.Proofs.Form.Exact
import EquationText.Proofs.Number.Cutoff

/-! # What simplifying does to a form

Simplifying a form puts every number of it through the same cut, of one part at a time: a term whose modulus
counts as zero has two parts that do (`EquationText.Form.simplifyTerms_cons`). So a second simplification finds
nothing to drop (`EquationText.Form.simplify_simplify`), every coefficient of the result is a coefficient of the
form without its small parts (`EquationText.Form.coefficient_simplify`), and what is left reaches the tolerance
(`EquationText.Form.isSimplification_simplify`).
-/

namespace EquationText

namespace Scalar

variable {cutoff : Rat} {tolerance : Double} {a : Scalar}

@[simp]
theorem chop_zero : zero.chop cutoff = zero := ite_self _

@[simp]
theorem chop_chop : (a.chop cutoff).chop cutoff = a.chop cutoff := by
  by_cases below : a.toDouble.isBelow cutoff = true
  · rw [chop_eq_zero below, chop_zero]
  · rw [chop_eq_self (Bool.eq_false_iff.mpr below), chop_eq_self (Bool.eq_false_iff.mpr below)]

/-- Whether a scalar is as large as the tolerance: as a double, and for itself where it is compared exactly. -/
structure Reaches (tolerance : Double) (a : Scalar) : Prop where
  toDouble : tolerance.size ≤ a.toDouble.size
  size : a.IsComparedExactly tolerance → tolerance.size ≤ a.size

theorem reaches_of_le (large : tolerance.size ≤ a.toDouble.size) : a.Reaches tolerance :=
  ⟨large, fun same => not_lt.mp fun small => absurd (same.mpr small) (not_lt.mpr large)⟩

section Chop

variable (positive : tolerance.IsPositive)
include positive

/-- What a cut leaves of a scalar reaches the tolerance, unless it is zero. -/
theorem reaches_chop (nonzero : (a.chop tolerance.cutoff).value ≠ 0) : (a.chop tolerance.cutoff).Reaches tolerance := by
  have above : ¬ a.toDouble.isBelow tolerance.cutoff = true := fun below => by
    rw [chop_eq_zero below, value_zero] at nonzero
    exact nonzero rfl
  rw [chop_eq_self (Bool.eq_false_iff.mpr above)]
  exact reaches_of_le (not_lt.mp fun small => above ((isBelow_cutoff_iff positive).mpr small))

theorem size_lt_of_value_eq_zero (vanishes : a.value = 0) : a.size < tolerance.size := by
  refine size_lt_of_isBelow positive ?_
  have pos := positive.cutoff_pos
  simpa [toDouble_of_value_eq_zero vanishes, Double.isBelow, Double.value?] using pos

/-- A cut changes an exact scalar by less than the tolerance. -/
theorem size_sub_chop_lt (exact : a.isExact = true) : (a.sub (a.chop tolerance.cutoff)).size < tolerance.size := by
  have cut : (a.chop tolerance.cutoff).isExact = true := isExact_chop exact
  have difference := value_sub exact cut
  by_cases below : a.toDouble.isBelow tolerance.cutoff = true
  · rw [chop_eq_zero below, value_zero, sub_zero] at difference
    rw [chop_eq_zero below, size, difference]
    exact size_lt_of_isBelow positive below
  · rw [chop_eq_self (Bool.eq_false_iff.mpr below), sub_self] at difference
    rw [chop_eq_self (Bool.eq_false_iff.mpr below)]
    exact size_lt_of_value_eq_zero positive difference

/-- A scalar of which a cut leaves nothing is below the tolerance. -/
theorem size_lt_of_value_chop_eq_zero (vanishes : (a.chop tolerance.cutoff).value = 0) : a.size < tolerance.size := by
  by_cases below : a.toDouble.isBelow tolerance.cutoff = true
  · exact size_lt_of_isBelow positive below
  · rw [chop_eq_self (Bool.eq_false_iff.mpr below)] at vanishes
    exact size_lt_of_value_eq_zero positive vanishes

end Chop

end Scalar

namespace Number

variable {cutoff : Rat} {tolerance : Double} {a : Number}

/-- The real and the imaginary part. -/
def parts (a : Number) : List Scalar := [a.re, a.im]

theorem forall_mem_parts {P : Scalar → Prop} : (∀ part ∈ a.parts, P part) ↔ P a.re ∧ P a.im := by
  simp [parts]

/-- Whether both parts are below the tolerance. -/
def IsWithin (tolerance : Double) (a : Number) : Prop := ∀ part ∈ a.parts, part.size < tolerance.size

/-- Whether the larger part is as large as the tolerance: as a double, and for itself where the parts are
compared exactly. -/
structure Reaches (tolerance : Double) (a : Number) : Prop where
  toDouble : tolerance.size ≤ max a.re.toDouble.size a.im.toDouble.size
  size : (∀ part ∈ a.parts, part.IsComparedExactly tolerance) → tolerance.size ≤ max a.re.size a.im.size

@[simp]
theorem chop_chop : (a.chop cutoff).chop cutoff = a.chop cutoff := by simp [chop]

theorem eq_zero_of_isZero (exact : a.isExact = true) (vanishes : a.isZero = true) : a = zero :=
  eq_of_toComplex_eq exact rfl (((isZero_iff a).mp vanishes).trans toComplex_zero.symm)

section Chop

variable (positive : tolerance.IsPositive)
include positive

theorem isWithin_sub_chop (exact : a.isExact = true) : (a.sub (a.chop tolerance.cutoff)).IsWithin tolerance := by
  obtain ⟨real, imaginary⟩ := (isExact_iff a).mp exact
  exact forall_mem_parts.mpr ⟨Scalar.size_sub_chop_lt positive real, Scalar.size_sub_chop_lt positive imaginary⟩

theorem isWithin_of_chop_eq_zero (vanishes : a.chop tolerance.cutoff = zero) : a.IsWithin tolerance := by
  have real : (a.re.chop tolerance.cutoff).value = 0 := by rw [show a.re.chop _ = _ from congrArg re vanishes]; rfl
  have imaginary : (a.im.chop tolerance.cutoff).value = 0 := by
    rw [show a.im.chop _ = _ from congrArg im vanishes]
    rfl
  exact forall_mem_parts.mpr ⟨Scalar.size_lt_of_value_chop_eq_zero positive real,
    Scalar.size_lt_of_value_chop_eq_zero positive imaginary⟩

theorem reaches_parts_chop : ∀ part ∈ (a.chop tolerance.cutoff).parts, part.value ≠ 0 → part.Reaches tolerance :=
  forall_mem_parts.mpr ⟨Scalar.reaches_chop positive, Scalar.reaches_chop positive⟩

omit positive in
/-- A number reaches the tolerance if one of its parts does. -/
theorem reaches_of_part {part : Scalar} (member : part ∈ a.parts) (large : part.Reaches tolerance) :
    a.Reaches tolerance := by
  have bounds : part.toDouble.size ≤ max a.re.toDouble.size a.im.toDouble.size ∧ part.size ≤ max a.re.size a.im.size := by
    simp only [parts, List.mem_cons, List.not_mem_nil, or_false] at member
    rcases member with rfl | rfl
    · exact ⟨le_max_left _ _, le_max_left _ _⟩
    · exact ⟨le_max_right _ _, le_max_right _ _⟩
  exact ⟨large.toDouble.trans bounds.1, fun same => (large.size (same part member)).trans bounds.2⟩

/-- What a cut leaves of a number reaches the tolerance, unless it is zero. -/
theorem reaches_chop (nonzero : (a.chop tolerance.cutoff).isZero = false) : (a.chop tolerance.cutoff).Reaches tolerance := by
  obtain ⟨part, member, value⟩ : ∃ part ∈ (a.chop tolerance.cutoff).parts, part.value ≠ 0 := by
    by_contra none
    push Not at none
    rw [(isZero_iff _).mpr ((toComplex_eq_zero_iff _).mpr (forall_mem_parts.mp none))] at nonzero
    cases nonzero
  exact reaches_of_part member (reaches_parts_chop positive part member value)

end Chop

end Number

namespace Form

variable {cutoff : Rat} {tolerance : Double} {form : Form} {unknown : Unknown} {terms : List (Unknown × Number)}

theorem simplifyTerms_simplifyTerms (terms : List (Unknown × Number)) :
    simplifyTerms cutoff (simplifyTerms cutoff terms) = simplifyTerms cutoff terms := by
  induction terms with
  | nil => rfl
  | cons term rest ih =>
      rw [simplifyTerms_cons]
      by_cases zero : (term.2.chop cutoff).isZero = true
      · rw [consTerm, if_pos zero, ih]
      · rw [consTerm, if_neg zero, simplifyTerms_cons, Number.chop_chop, ih, consTerm, if_neg zero]

/-- There is nothing left to drop from a simplified form. -/
theorem simplify_simplify (form : Form) : (form.simplify cutoff).simplify cutoff = form.simplify cutoff := by
  rw [simplify, simplify, Number.chop_chop, simplifyTerms_simplifyTerms]

/-! ## Coefficients -/

theorem coefficient_cons (constant : Number) (term : Unknown × Number) (rest : List (Unknown × Number))
    (unknown : Unknown) :
    coefficient ⟨constant, term :: rest⟩ unknown =
      if term.1 = unknown then term.2 else coefficient ⟨constant, rest⟩ unknown := by
  by_cases same : term.1 = unknown <;> simp [coefficient, same]

theorem coefficient_of_not_mem (absent : unknown ∉ form.unknowns) : form.coefficient unknown = .zero := by
  unfold coefficient
  rw [List.find?_eq_none.mpr]
  intro term member same
  exact absent (List.mem_map.mpr ⟨term, member, of_decide_eq_true same⟩)

/-- A term in front of others gives its unknown its coefficient, also if it is left out because that vanishes. -/
theorem coefficient_consTerm {constant a : Number} (exact : a.isExact = true) (other : Unknown)
    (absent : unknown ∉ terms.map Prod.fst) :
    coefficient ⟨constant, consTerm unknown a terms⟩ other =
      if unknown = other then a else coefficient ⟨constant, terms⟩ other := by
  by_cases zero : a.isZero = true
  · rw [consTerm, if_pos zero]
    split
    · rename_i same
      subst same
      rw [Number.eq_zero_of_isZero exact zero]
      exact coefficient_of_not_mem absent
    · rfl
  · rw [consTerm, if_neg zero, coefficient_cons]

theorem coefficient_simplifyTerms (constant : Number) (exact : ExactTerms terms) (unknown : Unknown) :
    coefficient ⟨constant.chop cutoff, simplifyTerms cutoff terms⟩ unknown =
      (coefficient ⟨constant, terms⟩ unknown).chop cutoff := by
  induction terms with
  | nil => simp [simplifyTerms, coefficient, Number.chop, Number.zero]
  | cons term rest ih =>
      have absent : term.1 ∉ (simplifyTerms cutoff rest).map Prod.fst := fun member =>
        Unknown.ne_of_before (exact.head_before (mem_simplifyTerms member)) rfl
      rw [simplifyTerms_cons, coefficient_consTerm (Number.isExact_chop exact.head_exact) unknown absent,
        coefficient_cons, ih exact.tail]
      split <;> rfl

/-- Every coefficient of a simplified form is one of the form, without its parts that count as zero. -/
theorem coefficient_simplify (exact : form.IsExact) (unknown : Unknown) :
    (form.simplify cutoff).coefficient unknown = (form.coefficient unknown).chop cutoff :=
  coefficient_simplifyTerms form.constant exact.terms unknown

theorem isExact_coefficient (exact : form.IsExact) (unknown : Unknown) :
    (form.coefficient unknown).isExact = true := by
  by_cases mentioned : unknown ∈ form.unknowns
  · exact exact.terms.exact _ (mem_terms_coefficient mentioned)
  · rw [coefficient_of_not_mem mentioned]
    rfl

/-! ## The simplified form -/

/-- The constant and the coefficients of a form. -/
def numbers (form : Form) : List Number := form.constant :: form.terms.map Prod.snd

/-- How the form that simplification leaves compares with the form that it was given. -/
structure IsSimplification (tolerance : Double) (form result : Form) : Prop where
  /-- Every part that is left, of the constant or of a coefficient, reaches the tolerance, unless it is zero. -/
  reaches : ∀ number ∈ result.numbers, ∀ part ∈ number.parts, part.value ≠ 0 → part.Reaches tolerance
  /-- Every part of the constant is changed by less than the tolerance. -/
  constant : (form.constant.sub result.constant).IsWithin tolerance
  /-- Every part of a coefficient is changed by less than the tolerance. -/
  coefficient : ∀ unknown, ((form.coefficient unknown).sub (result.coefficient unknown)).IsWithin tolerance
  /-- No unknown is brought in. -/
  unknowns : result.unknowns ⊆ form.unknowns
  /-- An unknown is dropped only if both parts of its coefficient are below the tolerance. -/
  dropped : ∀ unknown ∈ form.unknowns, unknown ∉ result.unknowns → (form.coefficient unknown).IsWithin tolerance

theorem exists_chop_of_mem_numbers {number : Number} (member : number ∈ (form.simplify cutoff).numbers) :
    ∃ old : Number, number = old.chop cutoff := by
  rcases List.mem_cons.mp member with rfl | member
  · exact ⟨form.constant, rfl⟩
  · obtain ⟨term, inside, rfl⟩ := List.mem_map.mp member
    obtain ⟨old, _, rfl, _⟩ := exists_of_mem_simplifyTerms inside
    exact ⟨old.2, rfl⟩

/-- Simplifying drops from an exact form what is below the tolerance, and nothing else. -/
theorem isSimplification_simplify (positive : tolerance.IsPositive) (exact : form.IsExact) :
    form.IsSimplification tolerance (form.simplify tolerance.cutoff) where
  reaches number member := by
    obtain ⟨old, rfl⟩ := exists_chop_of_mem_numbers member
    exact Number.reaches_parts_chop positive
  constant := Number.isWithin_sub_chop positive exact.constant
  coefficient unknown := by
    rw [coefficient_simplify exact]
    exact Number.isWithin_sub_chop positive (isExact_coefficient exact unknown)
  unknowns unknown := mem_unknowns_simplify
  dropped unknown _ absent := by
    have vanishes := coefficient_of_not_mem absent
    rw [coefficient_simplify exact] at vanishes
    exact Number.isWithin_of_chop_eq_zero positive vanishes

end Form

end EquationText
