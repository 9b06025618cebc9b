import EquationText.Proofs.Solver.Reduced
import EquationText.Proofs.Solver.Translation
import EquationText.Solver.Command

/-! # What a refused equation leaves behind

A refused equation never changes how the solver reports and prints. As long as no pivot is recorded it
does not change what the solver knows either; once one is, the pivot stays eliminated although the
equation is refused (`EquationText.Solver.refused_equation_effect`).
-/

namespace EquationText

namespace Solver

variable {settings : Settings} {P : Solver → Prop}

section Keeps

variable (untouched : ∀ unknown, Untouched P unknown)
  (counting : ∀ solver created, P solver → P { solver with created })
include counting

theorem valueOf_keeps (expr : Expr) : Action.Keeps P (valueOf settings expr) := by
  refine .bind .of_get fun solver => ?_
  refine .bind (.of_ofExcept _) fun ⟨value, created⟩ => ?_
  refine .bind (.of_modify fun solver => counting solver created) fun _ => ?_
  exact .of_pure _

omit counting in
theorem reportEquation_keeps (left right : Value) :
    Action.Keeps P (reportEquation settings left right) := by
  refine .bind .of_get fun solver => ?_
  split
  · refine .bind (.of_ofExcept _) fun leftText => ?_
    refine .bind (.of_ofExcept _) fun rightText => ?_
    exact .of_report _ _ _
  · exact .of_pure _

include untouched

/-- A property of solvers that recording forms and counting unknowns keep is kept by solving. -/
theorem solve_keeps (equation : Expr) : Action.Keeps P (solve settings equation) := by
  unfold solve
  split
  · refine .bind (.of_report _ _ _) fun _ => ?_
    refine .bind (valueOf_keeps counting _) fun left => ?_
    refine .bind (valueOf_keeps counting _) fun right => ?_
    refine .bind (reportEquation_keeps left right) fun _ => ?_
    refine .bind .of_get fun before => ?_
    have equating : Action.Keeps P (equate settings left right) := by
      rw [equate_eq]
      exact .bind (.of_ofExcept _) fun _ => install_keeps untouched
    refine .bind equating fun _ => ?_
    refine .bind .of_get fun after => ?_
    exact .of_ofExcept _
  · exact .of_failWith _

end Keeps

theorem showNames_keeps (words : List (List Char)) : Action.Keeps P (showNames settings words) := by
  induction words with
  | nil => exact .of_pure _
  | cons word rest ih =>
      unfold showNames
      simp only
      split
      · refine .bind .of_get fun solver => ?_
        refine .bind (.of_ofExcept _) fun text => ?_
        refine .bind (.of_report _ _ _) fun _ => ?_
        exact ih
      · exact .of_failWith _

/-- A property of solvers that does not depend on how they report, nor with which of the usual precisions
they print, is kept by commands. -/
theorem command_keeps (reporting : ∀ solver verbose, P solver → P { solver with verbose })
    (printing : ∀ solver precision, IsUsualPrecision precision → P solver → P { solver with precision })
    (name payload : String) : Action.Keeps P (command settings name payload) := by
  unfold command
  simp only
  split
  · unfold setVerbose
    split
    · exact .of_modify fun solver => reporting solver _
    · exact .of_failWith _
  · unfold showForms
    split
    · exact .of_failWith _
    · exact showNames_keeps _
  · unfold setDigits
    split
    · exact .of_failWith _
    · split
      · rename_i digits _ inRange
        have usual : IsUsualPrecision digits := isUsualPrecision_of_accepted inRange
        exact .of_modify fun solver => printing solver digits usual
      · exact .of_failWith _
  · exact .of_failWith _

/-- A solver that equations and commands have led to, whether they were refused or not. -/
inductive Reachable (settings : Settings) : Solver → Prop
  | start (verbose : Bool) (maxDepth precision : Option Int) :
    Reachable settings (start settings verbose maxDepth precision)
  | solve (equation : Expr) {before : Traced Solver} (reachable : Reachable settings before.state) :
    Reachable settings (solve settings equation before).2.state
  | command (name payload : String) {before : Traced Solver}
    (reachable : Reachable settings before.state) :
    Reachable settings (command settings name payload before).2.state

/-- An unknown is eliminated once at most, whatever happens to a solver. -/
theorem Reachable.distinct {solver : Solver} (reachable : Reachable settings solver) :
    solver.eliminated.Nodup := by
  induction reachable with
  | start verbose maxDepth precision =>
      exact (start_isReduced settings verbose maxDepth precision).distinct
  | solve equation _ ih =>
      have untouched (unknown : Unknown) :
          Untouched (fun solver => solver.eliminated.Nodup) unknown :=
        { placing := fun form _ distinct => nodup_place distinct unknown form
          marking := fun _ _ _ _ distinct => distinct }
      exact solve_keeps untouched (fun _ _ distinct => distinct) equation _ ih
  | command name payload _ ih =>
      have keeps : Action.Keeps (fun solver : Solver => solver.eliminated.Nodup)
          (Solver.command settings name payload) :=
        command_keeps (fun _ _ distinct => distinct) (fun _ _ _ distinct => distinct) name payload
      exact keeps _ ih

variable {before after : Traced Solver} {equation : Expr} {fault : Fault}

/-- Solving never changes how the solver reports and prints, nor its limits. -/
theorem solve_keeps_configuration (settings : Settings) (equation : Expr) (before : Traced Solver) :
    let after := (solve settings equation before).2.state
    after.verbose = before.state.verbose ∧ after.precision = before.state.precision ∧
      after.maxDepth = before.state.maxDepth ∧ after.closed = before.state.closed := by
  have keeps : Action.Keeps (fun solver : Solver =>
      solver.verbose = before.state.verbose ∧ solver.precision = before.state.precision ∧
        solver.maxDepth = before.state.maxDepth ∧ solver.closed = before.state.closed)
      (solve settings equation) :=
    solve_keeps (fun _ => ⟨fun _ _ same => same, fun _ _ _ _ same => same⟩) (fun _ _ same => same)
      equation
  exact keeps before ⟨rfl, rfl, rfl, rfl⟩

/-- Whether two solvers know the same, and so answer the same. -/
structure SameKnowledge (settings : Settings) (a b : Solver) : Prop where
  known : a.known = b.known
  solved : a.solved = b.solved
  bindings : a.bindings settings = b.bindings settings
  translate : ∀ reference, a.translate settings reference = b.translate settings reference

/-- Whether the form of an unknown is recorded in a solver, and the unknown is solved if the form is a
number that can be described. -/
structure IsRecorded (settings : Settings) (before after : Solver) (unknown : Unknown)
    (solution : Form) : Prop where
  known : valueOf? unknown after.known = some solution
  solved : ∀ name number, unknown = .named name → solution = .ofNumber number →
    before.CanDescribe settings solution → valueOf? name after.solved = some number

/-- Without a pivot a refused equation changes nothing that the solver knows. -/
theorem sameKnowledge_of_no_pivot {cause : Cause}
    (refused : solve settings equation before = (.error fault, after))
    (early : before.state.nextPivot settings equation = .error cause) :
    fault = cause.unplaced ∧ SameKnowledge settings after.state before.state := by
  obtain ⟨placed, ⟨same, created, state⟩ | ⟨unknown, solution, created, middle, late, _⟩⟩ :=
    solve_error refused
  · rw [early] at same
    cases same
    rw [state]
    exact ⟨placed, rfl, rfl, bindings_congr rfl rfl, translate_congr rfl rfl⟩
  · rw [early] at late
    cases late

/-- A pivot that a refused equation has recorded stays so. -/
theorem isRecorded_of_pivot {unknown : Unknown} {solution : Form}
    (distinct : before.state.eliminated.Nodup)
    (refused : solve settings equation before = (.error fault, after))
    (late : before.state.nextPivot settings equation = .ok (unknown, solution)) :
    IsRecorded settings before.state after.state unknown solution := by
  obtain ⟨_, ⟨early, _⟩ | ⟨found, form, created, middle, same, recordable, state, run⟩⟩ :=
    solve_error refused
  · rw [late] at early
    cases early
  · rw [late] at same
    cases same
    obtain ⟨left, right, _, _, pivot⟩ := nextPivot_eq_ok late
    have absent : unknown ∉ solution.unknowns :=
      fun inside => (Form.pivotStep_unknowns_subset pivot inside).2 rfl
    have distinctNow : (middle.state.known.map Prod.fst).Nodup := by
      rw [state]
      exact distinct
    have finish : (install settings unknown solution middle).2 = after := by
      rcases run with run | ⟨run, _⟩
      · rw [run]
      · rw [run]
    rw [← finish]
    refine ⟨valueOf?_install distinctNow absent recordable, ?_⟩
    rintro name number rfl rfl describable
    have describableNow : middle.state.CanDescribe settings (.ofNumber number) := by
      rw [state]
      exact describable
    exact valueOf?_solved_install distinctNow recordable describableNow

/-- The pivot of an equation is new to a reduced solver. -/
theorem IsReduced.nextPivot_new {solver : Solver} {unknown : Unknown} {solution : Form}
    (reduced : solver.IsReduced) (next : solver.nextPivot settings equation = .ok (unknown, solution)) :
    unknown ∉ solver.eliminated := by
  obtain ⟨left, right, created, sides, pivot⟩ := nextPivot_eq_ok next
  exact reduced.not_mem_of_reaches
    (mem_unknowns_sides sides (Form.mem_unknowns_sub (Form.pivotStep_unknown_mem pivot)))

/-- What a refused equation changes. Reports and precision stay as they are. If the refusal comes
before a pivot is recorded, so does all that the solver knows, and with it every answer; if it comes
later, the pivot has been eliminated all the same. In a reduced solver that is a change, since the pivot
is new to it. -/
theorem refused_equation_effect (reachable : Reachable settings before.state)
    (refused : solve settings equation before = (.error fault, after)) :
    after.state.verbose = before.state.verbose ∧ after.state.precision = before.state.precision ∧
      (∀ cause, before.state.nextPivot settings equation = .error cause →
        fault = cause.unplaced ∧ SameKnowledge settings after.state before.state) ∧
      (∀ unknown solution, before.state.nextPivot settings equation = .ok (unknown, solution) →
        IsRecorded settings before.state after.state unknown solution) ∧
      (before.state.IsReduced → (after.state.known = before.state.known ↔
        ∃ cause, before.state.nextPivot settings equation = .error cause)) := by
  obtain ⟨verbose, precision, _⟩ := solve_keeps_configuration settings equation before
  rw [refused] at verbose precision
  refine ⟨verbose, precision, fun cause early => sameKnowledge_of_no_pivot refused early,
    fun unknown solution late => isRecorded_of_pivot reachable.distinct refused late, ?_⟩
  intro reduced
  refine ⟨fun same => ?_, fun ⟨cause, early⟩ => (sameKnowledge_of_no_pivot refused early).2.known⟩
  cases next : before.state.nextPivot settings equation with
  | error cause => exact ⟨cause, rfl⟩
  | ok pivot =>
      obtain ⟨unknown, solution⟩ := pivot
      have recorded := (isRecorded_of_pivot reachable.distinct refused next).known
      rw [same, valueOf?_eq_none_iff.mpr (reduced.nextPivot_new next)] at recorded
      cases recorded

/-- A rational whose double lies just within the range. -/
def large : Rat := Rat.ofInt (17 * Int.pow 10 307)

/-- The equation `a = p + 1.7e308`. -/
def shiftedLarge : Expr :=
  .binary .equation (.named "a") (.binary .sum (.named "p") (.number (.ofDecimal 17 307)))

/-- The equation `p = 1.7e308`. -/
def onlyLarge : Expr := .binary .equation (.named "p") (.number (.ofDecimal 17 307))

/-- A fresh solver after `a = p + 1.7e308`. -/
def afterShiftedLarge : Traced Solver := (solve {} shiftedLarge ⟨start {} false none none, #[]⟩).2

theorem onlyLarge_refused :
    (solve {} onlyLarge afterShiftedLarge).1 =
      .error (Cause.solving (.valueRange "a")).unplaced := by
  decide +kernel

theorem onlyLarge_binds :
    (solve {} onlyLarge afterShiftedLarge).2.state.solved.map Prod.fst = ["p"] ∧
      afterShiftedLarge.state.solved = [] := by
  decide +kernel

/-- After `a = p + 1.7e308` the equation `p = 1.7e308` is refused, since `a` is out of range, and yet
`p` is eliminated and solved. -/
theorem refused_equation_effect_onlyLarge :
    afterShiftedLarge.state.nextPivot {} onlyLarge = .ok (.named "p", .ofRat large) ∧
      valueOf? (.named "p") (solve {} onlyLarge afterShiftedLarge).2.state.known =
        some (.ofRat large) ∧
      valueOf? "p" (solve {} onlyLarge afterShiftedLarge).2.state.solved = some (.ofRat large) := by
  have pivot : afterShiftedLarge.state.nextPivot {} onlyLarge =
      .ok (.named "p", .ofRat large) := by
    decide +kernel
  have reachable : Reachable {} afterShiftedLarge.state := .solve _ (.start false none none)
  have quiet : afterShiftedLarge.state.verbose = false := by
    decide +kernel
  obtain ⟨_, _, _, late, _⟩ := refused_equation_effect reachable (Prod.ext onlyLarge_refused rfl)
  have recorded := late _ _ pivot
  refine ⟨pivot, recorded.known, recorded.solved "p" (.ofRat large) rfl rfl ?_⟩
  intro verbose
  rw [quiet] at verbose
  cases verbose

/-- A refused equation can change what the solver knows. -/
theorem refused_equation_not_atomic :
    ¬ ∀ (settings : Settings) (before after : Traced Solver) (equation : Expr) (fault : Fault),
      Reachable settings before.state →
      solve settings equation before = (.error fault, after) →
      after.state.known = before.state.known ∧ after.state.solved = before.state.solved ∧
        after.state.precision = before.state.precision ∧
        after.state.verbose = before.state.verbose := by
  intro atomic
  have reachable : Reachable {} afterShiftedLarge.state := .solve _ (.start false none none)
  obtain ⟨_, solved, _⟩ := atomic {} afterShiftedLarge _ onlyLarge _ reachable
    (Prod.ext onlyLarge_refused rfl)
  have names := onlyLarge_binds.1
  rw [solved, onlyLarge_binds.2] at names
  cases names

end Solver

end EquationText
