import EquationText.Proofs.Form.Unknowns
import Mathlib.Data.String.Basic

/-! # Exact forms

A form is exact when its numbers are, its terms come in the order of their unknowns, each unknown
once, and no coefficient vanishes. Every operation on forms that arithmetic needs keeps forms exact.
-/

namespace EquationText

namespace Unknown

theorem before_trans {a b c : Unknown} (first : a.before b = true) (second : b.before c = true) :
    a.before c = true := by
  cases a <;> cases b <;> cases c <;> simp only [before, decide_eq_true_eq, Bool.false_eq_true] at *
  · exact first.trans second
  · exact first.trans second

theorem ne_of_before {a b : Unknown} (first : a.before b = true) : a ≠ b := by
  rintro rfl
  cases a <;> simp [before] at first

theorem before_of_not_before {a b : Unknown} (different : a ≠ b) (after : ¬ a.before b = true) :
    b.before a = true := by
  cases a <;> cases b <;>
    simp only [before, decide_eq_true_eq, not_lt, Bool.false_eq_true, not_false_eq_true,
      not_true_eq_false, ne_eq, Unknown.anonymous.injEq, Unknown.named.injEq] at *
  · exact after.lt_of_ne' different
  · exact after.lt_of_ne' different

end Unknown

namespace Form

/-- Terms of exact coefficients other than zero, in the order of their unknowns. -/
structure ExactTerms (terms : List (Unknown × Number)) : Prop where
  exact : ∀ term ∈ terms, term.2.isExact = true
  nonzero : ∀ term ∈ terms, term.2.isZero = false
  ordered : terms.Pairwise fun first second => first.1.before second.1 = true

/-- An exact number plus exact terms. -/
structure IsExact (form : Form) : Prop where
  constant : form.constant.isExact = true
  terms : ExactTerms form.terms

namespace ExactTerms

variable {terms first second : List (Unknown × Number)} {unknown : Unknown} {a : Number}

theorem nil : ExactTerms [] := ⟨by simp, by simp, .nil⟩

theorem tail {term : Unknown × Number} (exact : ExactTerms (term :: terms)) : ExactTerms terms :=
  ⟨fun other member => exact.exact other (List.mem_cons_of_mem _ member),
    fun other member => exact.nonzero other (List.mem_cons_of_mem _ member),
    (List.pairwise_cons.mp exact.ordered).2⟩

theorem head_before {term : Unknown × Number} (exact : ExactTerms (term :: terms)) {other : Unknown}
    (member : other ∈ terms.map Prod.fst) : term.1.before other = true := by
  obtain ⟨found, inside, rfl⟩ := List.mem_map.mp member
  exact (List.pairwise_cons.mp exact.ordered).1 found inside

theorem head_exact {term : Unknown × Number} (exact : ExactTerms (term :: terms)) :
    term.2.isExact = true :=
  exact.exact term (List.mem_cons_self ..)

theorem toComplex_ne_zero (exact : ExactTerms terms) (member : (unknown, a) ∈ terms) :
    a.toComplex ≠ 0 := by
  intro vanishes
  have zero := exact.nonzero _ member
  rw [(Number.isZero_iff a).mpr vanishes] at zero
  cases zero

theorem sublist (exact : ExactTerms terms) (fewer : first.Sublist terms) : ExactTerms first :=
  ⟨fun term member => exact.exact term (fewer.subset member),
    fun term member => exact.nonzero term (fewer.subset member), exact.ordered.sublist fewer⟩

theorem cons (exact : ExactTerms terms) (number : a.isExact = true) (nonzero : a.isZero = false)
    (least : ∀ other ∈ terms.map Prod.fst, unknown.before other = true) :
    ExactTerms ((unknown, a) :: terms) := by
  refine ⟨?_, ?_, List.pairwise_cons.mpr ⟨fun term member => ?_, exact.ordered⟩⟩
  · exact List.forall_mem_cons.mpr ⟨number, exact.exact⟩
  · exact List.forall_mem_cons.mpr ⟨nonzero, exact.nonzero⟩
  · exact least term.1 (List.mem_map_of_mem member)

theorem consTerm (exact : ExactTerms terms) (number : a.isExact = true)
    (least : ∀ other ∈ terms.map Prod.fst, unknown.before other = true) :
    ExactTerms (Form.consTerm unknown a terms) := by
  by_cases zero : a.isZero = true
  · rw [Form.consTerm, if_pos zero]
    exact exact
  · rw [Form.consTerm, if_neg zero]
    exact exact.cons number (Bool.eq_false_iff.mpr zero) least

/-- Merged exact terms are exact: those of one unknown are added, and left out if they cancel. By induction along
the merge. -/
theorem addTerms (left : ExactTerms first) (right : ExactTerms second) :
    ExactTerms (Form.addTerms first second) := by
  induction first, second using addTerms.induct with
  | case1 second => simpa [Form.addTerms] using right
  | case2 first _ => simpa [Form.addTerms] using left
  | case3 u a first b second ih =>
      rw [Form.addTerms, if_pos rfl]
      refine (ih left.tail right.tail).consTerm
        (Number.isExact_add left.head_exact right.head_exact) ?_
      intro other member
      exact (mem_addTerms member).elim left.head_before right.head_before
  | case4 u a first v b second different before ih =>
      rw [Form.addTerms, if_neg different, if_pos before]
      refine (ih left.tail right).cons left.head_exact
        (left.nonzero _ (List.mem_cons_self ..)) ?_
      intro other member
      rcases mem_addTerms member with inside | inside
      · exact left.head_before inside
      · rcases List.mem_cons.mp inside with rfl | later
        · exact before
        · exact Unknown.before_trans before (right.head_before later)
  | case5 u a first v b second different after ih =>
      rw [Form.addTerms, if_neg different, if_neg after]
      have before := Unknown.before_of_not_before different after
      refine (ih left right.tail).cons right.head_exact
        (right.nonzero _ (List.mem_cons_self ..)) ?_
      intro other member
      rcases mem_addTerms member with inside | inside
      · rcases List.mem_cons.mp inside with rfl | later
        · exact before
        · exact Unknown.before_trans before (left.head_before later)
      · exact right.head_before inside

theorem scaleTerms (exact : ExactTerms terms) {factor : Number} (number : factor.isExact = true) :
    ExactTerms (Form.scaleTerms factor terms) := by
  induction terms with
  | nil => exact nil
  | cons term rest ih =>
      refine (ih exact.tail).consTerm (Number.isExact_mul exact.head_exact number) ?_
      exact fun other member => exact.head_before (mem_scaleTerms member)

theorem map_neg (exact : ExactTerms terms) :
    ExactTerms (terms.map fun term => (term.1, term.2.neg)) := by
  refine ⟨?_, ?_, List.pairwise_map.mpr exact.ordered⟩
  · exact List.forall_mem_map.mpr fun term member =>
      (Number.isExact_neg _).trans (exact.exact term member)
  · exact List.forall_mem_map.mpr fun term member =>
      (Number.isZero_neg _).trans (exact.nonzero term member)

theorem simplifyTerms (exact : ExactTerms terms) (cutoff : Rat) :
    ExactTerms (Form.simplifyTerms cutoff terms) := by
  induction terms with
  | nil => exact nil
  | cons term rest ih =>
      rw [simplifyTerms_cons]
      refine (ih exact.tail).consTerm (Number.isExact_chop exact.head_exact) ?_
      exact fun other member => exact.head_before (mem_simplifyTerms member)

end ExactTerms

theorem mem_terms_coefficient {form : Form} {unknown : Unknown}
    (member : unknown ∈ form.unknowns) : (unknown, form.coefficient unknown) ∈ form.terms := by
  obtain ⟨term, inside, rfl⟩ := List.mem_map.mp member
  unfold coefficient
  split
  · rename_i found search
    have same : found.1 = term.1 := by simpa using List.find?_some search
    exact same ▸ List.mem_of_find?_eq_some search
  · rename_i search
    exact absurd (List.find?_eq_none.mp search term inside) (by simp)

namespace IsExact

variable {a b form : Form}

theorem ofNumber {number : Number} (exact : number.isExact = true) :
    (Form.ofNumber number).IsExact := ⟨exact, .nil⟩

theorem ofUnknown (unknown : Unknown) : (Form.ofUnknown unknown).IsExact :=
  ⟨rfl, ExactTerms.nil.cons rfl (by decide) (by simp)⟩

theorem add (first : a.IsExact) (second : b.IsExact) : (a.add b).IsExact :=
  ⟨Number.isExact_add first.constant second.constant, first.terms.addTerms second.terms⟩

theorem scale (exact : form.IsExact) {factor : Number} (number : factor.isExact = true) :
    (form.scale factor).IsExact :=
  ⟨Number.isExact_mul exact.constant number, exact.terms.scaleTerms number⟩

/-- The quotient of an exact form is its product with the reciprocal. -/
theorem div_eq_scale (exact : form.IsExact) {divisor : Number} (number : divisor.isExact = true) :
    form.div divisor = form.scale divisor.inv := by
  unfold Form.div
  split
  · rename_i constant
    rw [Number.div_eq_mul_inv_of_exact exact.constant number, Form.scale, (isConstant_iff _).mp constant]
    rfl
  · rfl

theorem div (exact : form.IsExact) {divisor : Number} (number : divisor.isExact = true) :
    (form.div divisor).IsExact := by
  rw [exact.div_eq_scale number]
  exact exact.scale (Number.isExact_inv number)

theorem neg (exact : form.IsExact) : form.neg.IsExact :=
  ⟨(Number.isExact_neg _).trans exact.constant, exact.terms.map_neg⟩

theorem sub (first : a.IsExact) (second : b.IsExact) : (a.sub b).IsExact := first.add second.neg

theorem erase (exact : form.IsExact) (unknown : Unknown) : (form.erase unknown).IsExact :=
  ⟨exact.constant, exact.terms.sublist List.filter_sublist⟩

theorem simplify (exact : form.IsExact) (cutoff : Rat) : (form.simplify cutoff).IsExact :=
  ⟨Number.isExact_chop exact.constant, exact.terms.simplifyTerms cutoff⟩

theorem solvedFor (exact : form.IsExact) (unknown : Unknown) {factor : Number}
    (number : factor.isExact = true) : (form.solvedFor unknown factor).IsExact :=
  (exact.erase unknown).neg.div number

theorem substitute (exact : form.IsExact) (value : a.IsExact) (unknown : Unknown) :
    (form.substitute unknown a).IsExact := by
  by_cases mentioned : form.mentions unknown = true
  · rw [Form.substitute, if_pos mentioned]
    have member := mem_terms_coefficient ((mentions_iff form unknown).mp mentioned)
    exact (exact.erase unknown).add (value.scale (exact.terms.exact _ member))
  · rw [Form.substitute, if_neg mentioned]
    exact exact

end IsExact

end Form

end EquationText
