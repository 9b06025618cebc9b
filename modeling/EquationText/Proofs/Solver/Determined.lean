import EquationText.Proofs.Solver.Solutions
import Mathlib.Data.List.Perm.Basic

/-! # Determined names

The names that a solver counts as solved after some accepted arithmetic equations are those, other than
`i`, that have the same value in every solution, and each is solved with that value
(`EquationText.Solver.solved_iff_determined`). The order of the equations therefore does not matter
(`EquationText.Solver.solved_perm`).
-/

namespace EquationText

namespace Solver

variable {settings : Settings} {after last : Traced Solver} {equations reordered : List Expr}
  {verbose otherVerbose : Bool} {maxDepth precision otherDepth otherPrecision : Option Int}
  {log otherLog : Array Entry}

theorem IsSolution.transfer (permutation : equations.Perm reordered) {assignment : Assignment}
    (solution : IsSolution assignment reordered) :
    ∃ moved, IsSolution moved equations ∧
      ∀ name, moved (.named name) = assignment (.named name) := by
  obtain ⟨unit, holds⟩ := solution
  have each := (Expr.exists_holdAll_iff (fun name => assignment (.named name)) 0 reordered).mp
    ⟨assignment, fun _ => rfl, holds⟩
  obtain ⟨moved, names, all⟩ :=
    (Expr.exists_holdAll_iff (fun name => assignment (.named name)) 0 equations).mpr
      fun equation member => each equation (permutation.mem_iff.mp member)
  exact ⟨moved, ⟨(names imaginaryName).trans unit, all⟩, names⟩

section Run

variable (positive : 0 < settings.cutoff)
  (accepted : Accepted settings equations ⟨start settings verbose maxDepth precision, log⟩ after)
include positive accepted

theorem solved_isExact {name : String} {number : Number}
    (solved : (name, number) ∈ after.state.solved) : number.isExact = true := by
  obtain ⟨reduced, exact, _⟩ := accepted.fresh positive
  exact (exact _ ((reduced.solved name number).mp solved).2).constant

/-- A name is solved with the value that it has in every solution, if there is one. -/
theorem solved_iff_determined (name : String) (z : ℂ) :
    (∃ number, (name, number) ∈ after.state.solved ∧ number.toComplex = z) ↔
      name ≠ imaginaryName ∧
        ∀ assignment, IsSolution assignment equations → assignment (.named name) = z := by
  obtain ⟨reduced, exact, _, solution⟩ := accepted.fresh positive
  constructor
  · rintro ⟨number, solved, rfl⟩
    obtain ⟨different, known⟩ := (reduced.solved name number).mp solved
    refine ⟨different, fun assignment holds => ?_⟩
    rw [(solution assignment).mp holds _ known, Form.value_ofNumber]
  · rintro ⟨different, determined⟩
    have value : ∀ assignment, after.state.Agrees assignment →
        (after.state.formOf (.named name)).value assignment = z := by
      intro assignment agrees
      rw [agrees.value_formOf]
      exact determined assignment ((solution assignment).mpr agrees)
    have constant : (after.state.formOf (.named name)).isConstant = true := by
      by_contra mentions
      obtain ⟨assignment, agrees, other⟩ := exists_agrees_value_eq reduced (exact.formOf _)
        (fun unknown inside => reduced.not_mem_formOf inside) mentions (z + 1)
      rw [value assignment agrees] at other
      exact one_ne_zero (left_eq_add.mp other)
    obtain ⟨assignment, agrees, _⟩ := reduced.exists_agrees fun _ => 0
    have number := value assignment agrees
    rw [Form.value_of_isConstant constant] at number
    refine ⟨_, (reduced.solved name _).mpr ⟨different, ?_⟩, number⟩
    cases found : valueOf? (.named name) after.state.known with
    | none =>
        rw [formOf, found] at constant
        cases constant
    | some form =>
        have same : after.state.formOf (.named name) = form := by rw [formOf, found]; rfl
        rw [same] at constant ⊢
        have whole : form = .ofNumber form.constant := by
          rw [Form.ofNumber, ← (Form.isConstant_iff form).mp constant]
        exact whole ▸ mem_of_valueOf?_eq_some found

end Run

/-- Two orders of the same equations solve the same names with the same numbers. -/
theorem mem_solved_of_perm (positive : 0 < settings.cutoff)
    (permutation : equations.Perm reordered)
    (accepted : Accepted settings equations ⟨start settings verbose maxDepth precision, log⟩ after)
    (other : Accepted settings reordered
      ⟨start settings otherVerbose otherDepth otherPrecision, otherLog⟩ last)
    {entry : String × Number} (solved : entry ∈ after.state.solved) :
    entry ∈ last.state.solved := by
  obtain ⟨name, number⟩ := entry
  obtain ⟨different, determined⟩ :=
    (solved_iff_determined positive accepted name number.toComplex).mp ⟨number, solved, rfl⟩
  have moved : ∀ assignment, IsSolution assignment reordered →
      assignment (.named name) = number.toComplex := by
    intro assignment solution
    obtain ⟨moved, holds, names⟩ := solution.transfer permutation
    rw [← names name]
    exact determined moved holds
  obtain ⟨found, member, same⟩ :=
    (solved_iff_determined positive other name number.toComplex).mpr ⟨different, moved⟩
  have equal := Number.eq_of_toComplex_eq (solved_isExact positive other member)
    (solved_isExact positive accepted solved) same
  exact equal ▸ member

/-- The solved names with their numbers do not depend on the order of the equations. -/
theorem solved_perm (positive : 0 < settings.cutoff) (permutation : equations.Perm reordered)
    (accepted : Accepted settings equations ⟨start settings verbose maxDepth precision, log⟩ after)
    (other : Accepted settings reordered
      ⟨start settings otherVerbose otherDepth otherPrecision, otherLog⟩ last) :
    after.state.solved.Perm last.state.solved := by
  have first := (accepted.fresh positive).1.solvedDistinct
  have second := (other.fresh positive).1.solvedDistinct
  refine (List.perm_ext_iff_of_nodup first.of_map second.of_map).mpr fun entry => ?_
  exact ⟨mem_solved_of_perm positive permutation accepted other,
    mem_solved_of_perm positive permutation.symm other accepted⟩

/-- After accepted equations a solver has solved, and binds, exactly the names other than `i` that have
one value in all solutions, each with that value; and so does every solver that accepts the equations in
another order. -/
theorem determined_names (positive : 0 < settings.cutoff)
    (accepted :
      Accepted settings equations ⟨start settings verbose maxDepth precision, log⟩ after) :
    (∀ name z, (∃ number, (name, number) ∈ after.state.solved ∧ number.toComplex = z) ↔
      name ≠ imaginaryName ∧
        ∀ assignment, IsSolution assignment equations → assignment (.named name) = z) ∧
    ((after.state.style settings).IsPrintable →
      ∃ bindings, after.state.bindings settings = .ok bindings ∧
        (∀ name, name ∈ bindings.map Prod.fst ↔ name ≠ imaginaryName ∧
          ∃ z, ∀ assignment, IsSolution assignment equations → assignment (.named name) = z) ∧
        ∀ name text, (name, text) ∈ bindings → ∃ number : Number,
          (∀ assignment, IsSolution assignment equations →
            assignment (.named name) = number.toComplex) ∧
          (select name = .whole name →
            ∃ printed, (after.state.style settings).number number = .ok printed ∧
              text = some printed)) ∧
    ∀ (reordered : List Expr) (verbose : Bool) (maxDepth precision : Option Int)
      (log : Array Entry) (last : Traced Solver), equations.Perm reordered →
      Accepted settings reordered ⟨start settings verbose maxDepth precision, log⟩ last →
      after.state.solved.Perm last.state.solved := by
  have determined := solved_iff_determined positive accepted
  refine ⟨determined, fun printable => ?_, fun reordered verbose maxDepth precision log last
    permutation other => solved_perm positive permutation accepted other⟩
  have distinct := (accepted.fresh positive).1.solvedDistinct
  obtain ⟨bindings, listed⟩ := exists_bindings printable
  obtain ⟨names, texts⟩ := translateAll_ok listed
  refine ⟨bindings, listed, fun name => ?_, fun name text member => ?_⟩
  · rw [names]
    constructor
    · intro inside
      obtain ⟨⟨found, number⟩, solved, rfl⟩ := List.mem_map.mp inside
      obtain ⟨different, value⟩ := (determined found number.toComplex).mp ⟨number, solved, rfl⟩
      exact ⟨different, number.toComplex, value⟩
    · rintro ⟨different, z, value⟩
      obtain ⟨number, solved, _⟩ := (determined name z).mpr ⟨different, value⟩
      exact List.mem_map_of_mem solved
  · have inside : name ∈ after.state.solved.map Prod.fst :=
      names ▸ List.mem_map_of_mem member
    obtain ⟨⟨found, number⟩, solved, rfl⟩ := List.mem_map.mp inside
    refine ⟨number, ((determined found number.toComplex).mp ⟨number, solved, rfl⟩).2, ?_⟩
    intro whole
    exact translate_whole whole ((valueOf?_eq_some_iff distinct).mpr solved) (texts _ member)

theorem sumAndDifference_reverse_accepted :
    Accepted {} sumAndDifference.reverse fresh
      (solveAll {} sumAndDifference.reverse fresh).2 where
  arithmetic := by decide
  accepted := by
    have ok : (solveAll {} sumAndDifference.reverse fresh).1 = .ok () := by decide +kernel
    exact Prod.ext ok rfl
  clear := by decide +kernel

/-- The equations `x + y = 10` and `x - y = 2` determine `x` in both orders. -/
theorem determined_names_sumAndDifference :
    (∀ assignment, IsSolution assignment sumAndDifference → assignment (.named "x") = 6) ∧
      (solveAll {} sumAndDifference fresh).2.state.solved.Perm
        (solveAll {} sumAndDifference.reverse fresh).2.state.solved := by
  have positive : 0 < ({} : Settings).cutoff := by decide +kernel
  obtain ⟨determined, _, order⟩ := determined_names positive sumAndDifference_accepted
  have solved : ("x", Number.ofRat 6) ∈ (solveAll {} sumAndDifference fresh).2.state.solved := by
    decide +kernel
  have value : (Number.ofRat 6).toComplex = 6 := by simp
  exact ⟨((determined "x" 6).mp ⟨_, solved, value⟩).2,
    order sumAndDifference.reverse false none none #[] _ (List.reverse_perm _).symm
      sumAndDifference_reverse_accepted⟩

end Solver

end EquationText
