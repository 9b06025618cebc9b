import EquationText.Proofs.Form.Range
import EquationText.Proofs.Form.Simplified
import EquationText.Proofs.Solver.Elimination

/-! # The pivot of a simplified difference

Simplifying a form drops what is below the tolerance and nothing else, and what it leaves to eliminate an unknown
from has a pivot: elimination never stops without one, and never divides by a coefficient below the tolerance
(`EquationText.Solver.simplified_and_eliminated`).
-/

namespace EquationText

namespace Form

variable {tolerance : Double} {form : Form} {unknown : Unknown} {factor : Number}

/-- The pivot of a simplified form reaches the tolerance. -/
theorem reaches_of_pivot? (positive : tolerance.IsPositive)
    (found : (form.simplify tolerance.cutoff).pivot? = some (unknown, factor)) : factor.Reaches tolerance := by
  obtain ⟨old, _, same, nonzero⟩ := exists_of_mem_simplifyTerms (pivot?_mem found)
  obtain rfl : factor = old.2.chop tolerance.cutoff := congrArg Prod.snd same
  exact Number.reaches_chop positive nonzero

theorem someModulusOverflows_simplify {cutoff : Rat} (within : form.someModulusOverflows = false) :
    (form.simplify cutoff).someModulusOverflows = false := by
  rw [someModulusOverflows_eq_false_iff] at within ⊢
  exact simplifyTerms_moduli within

end Form

namespace Solver

variable {settings : Settings} {difference : Form} {unknown : Unknown} {factor : Number}

theorem simplified_eq (within : difference.someModulusOverflows = false) :
    simplified settings difference = .ok (difference.simplify settings.cutoff) := by
  rw [simplified, within, if_neg Bool.false_ne_true]

/-- Elimination goes on with the pivot of the simplified difference, which is solved for it. -/
theorem eliminate_of_pivot (within : difference.someModulusOverflows = false)
    (found : (difference.simplify settings.cutoff).pivot? = some (unknown, factor)) :
    eliminate settings difference =
      (Action.ofExcept (simplified settings ((difference.simplify settings.cutoff).solvedFor unknown factor)) >>=
        install settings unknown) := by
  have mentions : ¬ (difference.simplify settings.cutoff).isConstant = true := fun constant => by
    have member := Form.pivot?_mem found
    rw [(Form.isConstant_iff _).mp constant] at member
    cases member
  have step : pivotStep settings difference =
      (simplified settings ((difference.simplify settings.cutoff).solvedFor unknown factor) >>=
        fun solution => pure (unknown, solution)) := by
    rw [pivotStep, simplified_eq within, except_ok_bind, if_neg mentions, found]
  rw [eliminate, step]
  cases simplified settings ((difference.simplify settings.cutoff).solvedFor unknown factor) with
  | error cause => rfl
  | ok solution => rfl

/-- With a positive tolerance, an exact form simplifies to one that simplifies to itself, that has no part below
the tolerance but zeros, and that differs from it by less than the tolerance in every part; no unknown comes in,
and one is dropped only with a coefficient below the tolerance. If the moduli are in the range of doubles,
simplification gives this form. Unless it is constant, it has a pivot, which reaches the tolerance, and elimination
goes on with the form that is solved for it. -/
theorem simplified_and_eliminated (positive : settings.tolerance.IsPositive) (exact : difference.IsExact) :
    let simple := difference.simplify settings.cutoff
    simple.simplify settings.cutoff = simple ∧
    difference.IsSimplification settings.tolerance simple ∧
    (difference.someModulusOverflows = false →
      simplified settings difference = .ok simple ∧ simplified settings simple = .ok simple) ∧
    (¬ simple.isConstant = true → ∃ unknown factor, simple.pivot? = some (unknown, factor) ∧
      (unknown, factor) ∈ simple.terms ∧ factor.toComplex ≠ 0 ∧ factor.Reaches settings.tolerance ∧
      (difference.someModulusOverflows = false → eliminate settings difference =
        (Action.ofExcept (simplified settings (simple.solvedFor unknown factor)) >>= install settings unknown))) := by
  intro simple
  have again : simple.simplify settings.cutoff = simple := Form.simplify_simplify difference
  refine ⟨again, Form.isSimplification_simplify positive exact, fun within => ⟨simplified_eq within, ?_⟩, ?_⟩
  · rw [simplified_eq (Form.someModulusOverflows_simplify within), again]
  · intro mentions
    obtain ⟨⟨unknown, factor⟩, found⟩ :=
      Option.ne_none_iff_exists'.mp (Form.pivot?_simplify_ne_none positive.cutoff_pos mentions)
    have member := Form.pivot?_mem found
    exact ⟨unknown, factor, found, member, (exact.simplify _).terms.toComplex_ne_zero member,
      Form.reaches_of_pivot? positive found, fun within => eliminate_of_pivot within found⟩

/-- A form with a coefficient whose parts are below the tolerance while its modulus is above. -/
def nearTolerance : Form :=
  ⟨⟨.exact (-3), .exact (1 / 10000000)⟩,
    [(.named "x", ⟨.exact (8 / 10000000), .exact (8 / 10000000)⟩),
      (.named "y", ⟨.exact (1 / 10000000), .exact 2⟩), (.named "z", .ofRat 1)]⟩

/-- What is left of the form near the tolerance. -/
def nearToleranceSimple : Form := ⟨.ofRat (-3), [(.named "y", ⟨.zero, .exact 2⟩), (.named "z", .ofRat 1)]⟩

theorem nearTolerance_simplify : nearTolerance.simplify ({} : Settings).cutoff = nearToleranceSimple := by
  decide +kernel

theorem nearTolerance_isExact : nearTolerance.IsExact :=
  ⟨rfl, by decide, by decide +kernel, by decide⟩

/-- The form near the tolerance loses `x`, and elimination goes on with `y`. -/
theorem simplified_and_eliminated_nearTolerance :
    nearTolerance.IsSimplification ({} : Settings).tolerance nearToleranceSimple ∧
    simplified {} nearTolerance = .ok nearToleranceSimple ∧
    simplified {} nearToleranceSimple = .ok nearToleranceSimple ∧
    Number.Reaches ({} : Settings).tolerance ⟨.zero, .exact 2⟩ ∧
    eliminate {} nearTolerance =
      (Action.ofExcept (simplified {} (nearToleranceSimple.solvedFor (.named "y") ⟨.zero, .exact 2⟩)) >>=
        install {} (.named "y")) := by
  have positive : ({} : Settings).tolerance.IsPositive := by decide +kernel
  have within : nearTolerance.someModulusOverflows = false := by decide +kernel
  obtain ⟨_, simplification, returned, pivoted⟩ :=
    @simplified_and_eliminated ({} : Settings) nearTolerance positive nearTolerance_isExact
  rw [nearTolerance_simplify] at simplification returned pivoted
  obtain ⟨unknown, factor, found, _, _, reaches, eliminated⟩ := pivoted (by decide)
  have pivot : nearToleranceSimple.pivot? = some (.named "y", ⟨.zero, .exact 2⟩) := by decide +kernel
  obtain ⟨rfl, rfl⟩ := Prod.mk.inj (Option.some.inj (pivot.symm.trans found))
  exact ⟨simplification, (returned within).1, (returned within).2, reaches, eliminated within⟩

end Solver

end EquationText
