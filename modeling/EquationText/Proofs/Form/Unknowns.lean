import EquationText.Proofs.Number.Tolerance
import EquationText.Solver.Eliminate

/-! # The unknowns of linear forms

No operation on forms brings in an unknown: what a result mentions is mentioned by an operand. A form
from which an unknown is removed, by erasing it, by solving for it or by substituting for it, no
longer mentions it.
-/

namespace EquationText

namespace Form

/-- The unknowns that a form mentions. -/
def unknowns (form : Form) : List Unknown := form.terms.map Prod.fst

theorem mentions_iff (form : Form) (unknown : Unknown) :
    form.mentions unknown = true ↔ unknown ∈ form.unknowns := by
  simp [mentions, unknowns]

theorem isConstant_iff (form : Form) : form.isConstant = true ↔ form.terms = [] :=
  List.isEmpty_iff

@[simp]
theorem unknowns_ofNumber (a : Number) : (ofNumber a).unknowns = [] := rfl

theorem consTerm_subset (unknown : Unknown) (a : Number) (terms : List (Unknown × Number)) :
    consTerm unknown a terms ⊆ (unknown, a) :: terms := by
  by_cases zero : a.isZero = true
  · rw [consTerm, if_pos zero]
    exact List.subset_cons_self _ _
  · rw [consTerm, if_neg zero]
    exact List.Subset.refl _

theorem mem_consTerm {unknown other : Unknown} {a : Number} {terms : List (Unknown × Number)}
    (member : other ∈ (consTerm unknown a terms).map Prod.fst) :
    other = unknown ∨ other ∈ terms.map Prod.fst := by
  simpa using List.map_subset Prod.fst (consTerm_subset unknown a terms) member

/-- Merged terms are of unknowns of the one list or the other. -/
theorem mem_addTerms {unknown : Unknown} {first second : List (Unknown × Number)}
    (member : unknown ∈ (addTerms first second).map Prod.fst) :
    unknown ∈ first.map Prod.fst ∨ unknown ∈ second.map Prod.fst := by
  induction first, second using addTerms.induct with
  | case1 second => exact .inr (by simpa [addTerms] using member)
  | case2 first _ => exact .inl (by simpa [addTerms] using member)
  | case3 u a first b second ih =>
      rw [addTerms, if_pos rfl] at member
      rcases mem_consTerm member with rfl | inside
      · exact .inl (List.mem_cons_self ..)
      · exact (ih inside).imp (List.mem_cons_of_mem _) (List.mem_cons_of_mem _)
  | case4 u a first v b second different before ih =>
      rw [addTerms, if_neg different, if_pos before] at member
      rcases List.mem_cons.mp member with rfl | inside
      · exact .inl (List.mem_cons_self ..)
      · exact (ih inside).imp (List.mem_cons_of_mem _) id
  | case5 u a first v b second different after ih =>
      rw [addTerms, if_neg different, if_neg after] at member
      rcases List.mem_cons.mp member with rfl | inside
      · exact .inr (List.mem_cons_self ..)
      · exact (ih inside).imp id (List.mem_cons_of_mem _)

theorem mem_scaleTerms {factor : Number} {unknown : Unknown} {terms : List (Unknown × Number)}
    (member : unknown ∈ (scaleTerms factor terms).map Prod.fst) :
    unknown ∈ terms.map Prod.fst := by
  induction terms with
  | nil => exact member
  | cons term rest ih =>
      rcases mem_consTerm member with rfl | inside
      · exact List.mem_cons_self ..
      · exact List.mem_cons_of_mem _ (ih inside)

/-- Whether the modulus of a coefficient counts as zero makes no difference: then both of its parts do. -/
theorem simplifyTerms_cons {cutoff : Rat} (term : Unknown × Number) (rest : List (Unknown × Number)) :
    simplifyTerms cutoff (term :: rest) =
      consTerm term.1 (term.2.chop cutoff) (simplifyTerms cutoff rest) := by
  by_cases negligible : term.2.isNegligible cutoff = true
  · rw [simplifyTerms, if_pos negligible, Number.chop_of_isNegligible negligible]
    exact (if_pos rfl).symm
  · rw [simplifyTerms, if_neg negligible]

/-- A term that is kept comes from a term, and what is left of its coefficient is not zero. -/
theorem exists_of_mem_simplifyTerms {cutoff : Rat} {terms : List (Unknown × Number)}
    {term : Unknown × Number} (member : term ∈ simplifyTerms cutoff terms) :
    ∃ old ∈ terms, term = (old.1, old.2.chop cutoff) ∧ (old.2.chop cutoff).isZero = false := by
  induction terms with
  | nil => cases member
  | cons first rest ih =>
      have later (inside : term ∈ simplifyTerms cutoff rest) :
          ∃ old ∈ first :: rest, term = (old.1, old.2.chop cutoff) ∧
            (old.2.chop cutoff).isZero = false := by
        obtain ⟨old, known, same, nonzero⟩ := ih inside
        exact ⟨old, List.mem_cons_of_mem _ known, same, nonzero⟩
      rw [simplifyTerms_cons] at member
      by_cases zero : (first.2.chop cutoff).isZero = true
      · rw [consTerm, if_pos zero] at member
        exact later member
      · rw [consTerm, if_neg zero] at member
        rcases List.mem_cons.mp member with same | inside
        · exact ⟨first, List.mem_cons_self .., same, Bool.eq_false_iff.mpr zero⟩
        · exact later inside

theorem mem_simplifyTerms {cutoff : Rat} {unknown : Unknown} {terms : List (Unknown × Number)}
    (member : unknown ∈ (simplifyTerms cutoff terms).map Prod.fst) :
    unknown ∈ terms.map Prod.fst := by
  obtain ⟨term, inside, rfl⟩ := List.mem_map.mp member
  obtain ⟨old, known, rfl, _⟩ := exists_of_mem_simplifyTerms inside
  exact List.mem_map.mpr ⟨old, known, rfl⟩

theorem mem_unknowns_add {a b : Form} {unknown : Unknown}
    (member : unknown ∈ (a.add b).unknowns) : unknown ∈ a.unknowns ∨ unknown ∈ b.unknowns :=
  mem_addTerms member

theorem mem_unknowns_scale {factor : Number} {form : Form} {unknown : Unknown}
    (member : unknown ∈ (form.scale factor).unknowns) : unknown ∈ form.unknowns :=
  mem_scaleTerms member

theorem mem_unknowns_simplify {cutoff : Rat} {form : Form} {unknown : Unknown}
    (member : unknown ∈ (form.simplify cutoff).unknowns) : unknown ∈ form.unknowns :=
  mem_simplifyTerms member

theorem mem_unknowns_div {form : Form} {divisor : Number} {unknown : Unknown}
    (member : unknown ∈ (form.div divisor).unknowns) : unknown ∈ form.unknowns := by
  unfold div at member
  split at member
  · cases member
  · exact mem_unknowns_scale member

@[simp]
theorem unknowns_neg (form : Form) : form.neg.unknowns = form.unknowns := by
  simp [unknowns, neg, Function.comp_def]

theorem mem_unknowns_sub {a b : Form} {unknown : Unknown}
    (member : unknown ∈ (a.sub b).unknowns) : unknown ∈ a.unknowns ∨ unknown ∈ b.unknowns := by
  simpa using mem_unknowns_add member

theorem mem_unknowns_erase {form : Form} {removed unknown : Unknown} :
    unknown ∈ (form.erase removed).unknowns ↔ unknown ∈ form.unknowns ∧ unknown ≠ removed := by
  simp only [unknowns, erase, List.mem_map, List.mem_filter, decide_eq_true_eq]
  constructor
  · rintro ⟨term, ⟨present, kept⟩, rfl⟩
    exact ⟨⟨term, present, rfl⟩, kept⟩
  · rintro ⟨⟨term, present, rfl⟩, kept⟩
    exact ⟨term, ⟨present, kept⟩, rfl⟩

theorem mem_unknowns_solvedFor {form : Form} {removed unknown : Unknown} {factor : Number}
    (member : unknown ∈ (form.solvedFor removed factor).unknowns) :
    unknown ∈ form.unknowns ∧ unknown ≠ removed := by
  have inside := mem_unknowns_div member
  rw [unknowns_neg] at inside
  exact mem_unknowns_erase.mp inside

theorem mem_unknowns_substitute {form value : Form} {removed unknown : Unknown}
    (member : unknown ∈ (form.substitute removed value).unknowns) :
    (unknown ∈ form.unknowns ∧ unknown ≠ removed) ∨ unknown ∈ value.unknowns := by
  by_cases mentioned : form.mentions removed = true
  · rw [substitute, if_pos mentioned] at member
    exact (mem_unknowns_add member).imp mem_unknowns_erase.mp mem_unknowns_scale
  · rw [substitute, if_neg mentioned] at member
    refine .inl ⟨member, ?_⟩
    rintro rfl
    exact mentioned ((mentions_iff _ _).mpr member)

/-! ## The pivot -/

theorem pivotFrom_cons (best : Option (Unknown × Number)) (term : Unknown × Number)
    (rest : List (Unknown × Number)) :
    pivotFrom best (term :: rest) = pivotFrom (some term) rest ∨
      pivotFrom best (term :: rest) = pivotFrom best rest :=
  ite_eq_or_eq _ _ _

theorem pivotFrom_mem {best : Option (Unknown × Number)} {terms : List (Unknown × Number)}
    {pivot : Unknown × Number} (found : pivotFrom best terms = some pivot) :
    best = some pivot ∨ pivot ∈ terms := by
  induction terms generalizing best with
  | nil => exact .inl found
  | cons term rest ih =>
      rcases pivotFrom_cons best term rest with taken | passed
      · rcases ih (taken ▸ found) with same | inside
        · exact .inr (Option.some.inj same ▸ List.mem_cons_self ..)
        · exact .inr (List.mem_cons_of_mem _ inside)
      · exact (ih (passed ▸ found)).imp id (List.mem_cons_of_mem _)

theorem pivot?_mem {form : Form} {pivot : Unknown × Number} (found : form.pivot? = some pivot) :
    pivot ∈ form.terms := by
  rcases pivotFrom_mem found with absent | member
  · cases absent
  · exact member

theorem pivotFrom_isSome {best : Unknown × Number} (terms : List (Unknown × Number)) :
    (pivotFrom (some best) terms).isSome = true := by
  induction terms generalizing best with
  | nil => rfl
  | cons term rest ih =>
      rcases pivotFrom_cons (some best) term rest with taken | passed
      · exact taken ▸ ih
      · exact passed ▸ ih

/-- A form of which some coefficient has a positive magnitude has a pivot. -/
theorem pivot?_ne_none {form : Form} {term : Unknown × Number} (member : term ∈ form.terms)
    (large : 0 < term.2.magnitude) : form.pivot? ≠ none := by
  have search : ∀ terms, term ∈ terms → (pivotFrom none terms).isSome = true := by
    intro terms inside
    induction terms with
    | nil => cases inside
    | cons first rest ih =>
        by_cases positive : 0 < first.2.magnitude
        · rw [pivotFrom, if_pos positive]
          exact pivotFrom_isSome rest
        · rw [pivotFrom, if_neg positive]
          rcases List.mem_cons.mp inside with rfl | inside
          · exact (positive large).elim
          · exact ih inside
  exact Option.isSome_iff_ne_none.mp (search form.terms member)

end Form

end EquationText
