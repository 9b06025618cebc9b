import EquationText.Proofs.Solver.Engine
import EquationText.Report

/-! # Accepted documents

What holds whenever a part of a document has been carried out without a fault
(`EquationText.accepted_document_invariants`): the eliminated unknowns are not mentioned by known
forms, the solved names are the eliminated ones with a constant form, they stay solved, and references
to the reserved names are written as they are.
-/

namespace EquationText

variable {settings : Settings} {verbose : Bool} {maxDepth precision : Option Int} {text : String}
  {log : Array Entry} {done later : List Step} {before after last : Traced SolverSession}

/-- A part of a document that succeeds leaves a solver that goes on from the one before it. -/
theorem performAll_continues {earlier : List (String × Number)}
    (part : ∀ step ∈ done, step ∈ documentSteps settings text)
    (start : before.state.Satisfies
      (Solver.Continues settings.anonymousWord earlier) (settings.anonymousWord ∉ ·.names))
    (accepted : (linearEngine settings).performAll done before = (.ok (), after)) :
    after.state.Satisfies
      (Solver.Continues settings.anonymousWord earlier) (settings.anonymousWord ∉ ·.names) := by
  have allowed : StepsAllowed (· ≠ settings.anonymousWord) done := fun step member =>
    documentSteps_names settings text step (part step member)
  have maintains := linearEngine_maintains settings settings.anonymousWord earlier
  exact (Engine.performAll_yields maintains allowed before () after start accepted).1

/-- A reference to a name that is not solved is written as it is. -/
theorem perform_reference_of_not_solved {reference : String}
    (unsolved : valueOf? (Solver.select reference).name before.state.engine.solved = none) :
    (linearEngine settings).perform (.reference reference) before =
      (.ok (), ⟨{ before.state with output := before.state.output ++ reference }, before.log⟩) := by
  have translated : (linearEngine settings).translation reference before = (.ok reference, before) := by
    have answer : (linearEngine settings).translate before.state.engine reference = .ok none :=
      Solver.translate_of_not_solved unsolved
    unfold Engine.translation
    rw [Action.run_bind_of_ok Action.run_get, answer]
    rfl
  change (linearEngine settings).writeReference reference before = _
  unfold Engine.writeReference
  rw [Action.run_bind_of_ok translated]
  rfl

namespace Solver.IsReduced

variable {solver : Solver}

/-- The imaginary unit has its form, and what a known form mentions is not eliminated. -/
theorem triangular (reduced : solver.IsReduced) :
    valueOf? (.named imaginaryName) solver.known = some (.ofNumber .imaginaryUnit) ∧
      ∀ entry ∈ solver.known, ∀ unknown, entry.2.mentions unknown = true →
        valueOf? unknown solver.known = none := by
  refine ⟨(valueOf?_eq_some_iff reduced.distinct).mpr reduced.imaginary, ?_⟩
  intro entry member unknown mentioned
  exact valueOf?_eq_none_iff.mpr
    (reduced.free entry member unknown ((Form.mentions_iff _ _).mp mentioned))

/-- The solved names are the eliminated ones with a constant form, but for the imaginary unit. -/
theorem mem_solved_iff (reduced : solver.IsReduced) (name : String) (number : Number) :
    (name, number) ∈ solver.solved ↔ name ≠ imaginaryName ∧
      ∃ form, valueOf? (.named name) solver.known = some form ∧ form.isConstant = true ∧
        form.constant = number := by
  rw [reduced.solved name number]
  refine and_congr_right fun _ => ⟨fun known => ?_, ?_⟩
  · exact ⟨_, (valueOf?_eq_some_iff reduced.distinct).mpr known, rfl, rfl⟩
  · rintro ⟨⟨terms, constant⟩, value, isConstant, rfl⟩
    cases (Form.isConstant_iff _).mp isConstant
    exact (valueOf?_eq_some_iff reduced.distinct).mp value

end Solver.IsReduced

/-- What holds of a fresh solver after a part of a document that it has accepted. Known forms mention
no eliminated unknown; the solved names are the eliminated ones with a constant form, within range;
whatever it accepts of the rest of the document keeps the solved names with their numbers and places;
and the name of the imaginary unit and the word for unnamed unknowns are never solved, so that
references to them are written as they are. -/
theorem accepted_document_invariants
    (part : done <+: documentSteps settings text)
    (accepted : (linearEngine settings).performAll done
      ⟨.start (.start settings verbose maxDepth precision), log⟩ = (.ok (), after)) :
    let solver := after.state.engine
    (valueOf? (.named Solver.imaginaryName) solver.known = some (.ofNumber .imaginaryUnit) ∧
      ∀ entry ∈ solver.known, ∀ unknown, entry.2.mentions unknown = true →
        valueOf? unknown solver.known = none) ∧
    ((solver.solved.map Prod.fst).Nodup ∧
      (∀ name number, (name, number) ∈ solver.solved ↔ name ≠ Solver.imaginaryName ∧
        ∃ form, valueOf? (.named name) solver.known = some form ∧ form.isConstant = true ∧
          form.constant = number) ∧
      ∀ entry ∈ solver.solved, entry.2.isFinite = true) ∧
    (∀ later last, done ++ later <+: documentSteps settings text →
      (linearEngine settings).performAll later after = (.ok (), last) →
      solver.solved <+: last.state.engine.solved) ∧
    ∀ name, name = Solver.imaginaryName ∨ name = settings.anonymousWord →
      valueOf? name solver.solved = none ∧
        ∀ reference, (Solver.select reference).name = name →
          (linearEngine settings).perform (.reference reference) after =
            (.ok (), ⟨{ after.state with output := after.state.output ++ reference }, after.log⟩) := by
  intro solver
  have start := Session.satisfies_start
    (Solver.start_continues settings verbose maxDepth precision settings.anonymousWord)
    (settings.anonymousWord ∉ Expr.names ·)
  obtain ⟨continues, values⟩ := performAll_continues (fun _ member => part.subset member) start accepted
  have reduced := continues.reduced
  refine ⟨reduced.triangular, ⟨reduced.solvedDistinct, reduced.mem_solved_iff, reduced.finite⟩, ?_, ?_⟩
  · intro later last whole laterAccepted
    have inside : ∀ step ∈ later, step ∈ documentSteps settings text := fun step member =>
      whole.subset (List.mem_append_right done member)
    exact (performAll_continues inside ⟨continues.refresh, values⟩ laterAccepted).1.solved
  · intro name reserved
    have unsolved := continues.valueOf?_solved reserved
    refine ⟨unsolved, fun reference selected => ?_⟩
    subst selected
    exact perform_reference_of_not_solved unsolved

/-- A document with two equations and two references. -/
def twoEquations : String := "\x7b\x7bx + y = 3\nx - y = 1\x7d\x7d x and whatever"

/-- A fresh session of the linear engine. -/
def freshSession : Traced SolverSession := ⟨.start (.start {} false none none), #[]⟩

/-- The session after the equations of the document. -/
def afterTwoEquations : Traced SolverSession :=
  ((linearEngine {}).performAll ((documentSteps {} twoEquations).take 2) freshSession).2

theorem twoEquations_accepted :
    (linearEngine {}).performAll ((documentSteps {} twoEquations).take 2) freshSession =
      (.ok (), afterTwoEquations) := by
  have ok : ((linearEngine {}).performAll ((documentSteps {} twoEquations).take 2)
      freshSession).1 = .ok () := by
    decide +kernel
  exact Prod.ext ok rfl

/-- After the equations `x + y = 3` and `x - y = 1` both names are solved, and the word for unnamed
unknowns is written as it is. -/
theorem accepted_document_invariants_twoEquations :
    afterTwoEquations.state.engine.solved.map Prod.fst = ["y", "x"] ∧
      (linearEngine {}).perform (.reference "whatever") afterTwoEquations =
        (.ok (), ⟨{ afterTwoEquations.state with
          output := afterTwoEquations.state.output ++ "whatever" }, afterTwoEquations.log⟩) := by
  have part : (documentSteps {} twoEquations).take 2 <+: documentSteps {} twoEquations :=
    List.take_prefix ..
  obtain ⟨_, _, _, reserved⟩ := accepted_document_invariants part twoEquations_accepted
  exact ⟨by decide +kernel, (reserved "whatever" (.inr rfl)).2 "whatever" rfl⟩

end EquationText
