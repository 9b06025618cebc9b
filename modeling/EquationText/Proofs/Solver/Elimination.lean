import EquationText.Proofs.Action
import EquationText.Proofs.Form.Unknowns
import EquationText.Proofs.Solver.Known

/-! # What elimination does

Recording the form of an unknown and putting it into the other forms are described as functions of
the solver (`EquationText.Solver.assign`, `EquationText.Solver.rewriteAll`). Installing a pivot, if it
succeeds, assigns its form and rewrites the other forms (`EquationText.Solver.install_ok`); if it
fails, a form is out of range or cannot be described (`EquationText.Solver.install_error`), and a
pivot that was recorded stays so (`EquationText.Solver.install_of_record`).
-/

namespace EquationText

namespace Solver

variable {settings : Settings} {before after : Traced Solver} {unknown : Unknown}
  {form solution : Form} {fault : Fault}

/-- The solver with the form of an unknown recorded. -/
def assign (unknown : Unknown) (form : Form) (solver : Solver) : Solver :=
  { solver with
    known := place unknown form solver.known
    solved :=
      match unknown with
      | .anonymous _ => solver.solved
      | .named name =>
        if form.isConstant then place name form.constant solver.solved else solver.solved }

@[simp]
theorem assign_known (unknown : Unknown) (form : Form) (solver : Solver) :
    (solver.assign unknown form).known = place unknown form solver.known := rfl

/-- Whether a form may be recorded: a constant has to be within the range of doubles. -/
def IsRecordable (form : Form) : Prop :=
  form.isConstant = true → form.constant.isFinite = true

/-- A form with what an unknown stands for put in, without what counts as zero. -/
def rewritten (settings : Settings) (unknown : Unknown) (solution form : Form) : Form :=
  if form.mentions unknown then (form.substitute unknown solution).simplify settings.cutoff
  else form

/-- The solver with what an unknown stands for put into the form of an entry that mentions it. -/
def rewriteOne (settings : Settings) (unknown : Unknown) (solution : Form)
    (entry : Unknown × Form) (solver : Solver) : Solver :=
  if entry.2.mentions unknown then
    solver.assign entry.1 (rewritten settings unknown solution entry.2)
  else solver

/-- The solver with what an unknown stands for put into the forms of some entries. -/
def rewriteAll (settings : Settings) (unknown : Unknown) (solution : Form) :
    List (Unknown × Form) → Solver → Solver
  | [], solver => solver
  | entry :: rest, solver =>
    rewriteAll settings unknown solution rest (solver.rewriteOne settings unknown solution entry)

theorem simplified_eq_ok {changed : Form} (ok : simplified settings form = .ok changed) :
    changed = form.simplify settings.cutoff := by
  by_cases beyond : form.someModulusOverflows = true
  · rw [simplified, if_pos beyond] at ok
    cases ok
  · rw [simplified, if_neg beyond] at ok
    cases ok
    rfl

theorem simplified_eq_error {cause : Cause} (error : simplified settings form = .error cause) :
    cause = .modulusRange ∧ form.someModulusOverflows = true := by
  by_cases beyond : form.someModulusOverflows = true
  · rw [simplified, if_pos beyond] at error
    cases error
    exact ⟨rfl, beyond⟩
  · rw [simplified, if_neg beyond] at error
    cases error

/-! ## Recording -/

/-- Reporting a form leaves the solver alone. -/
theorem reportForm_keeps (P : Solver → Prop) : Action.Keeps P (reportForm settings unknown form) := by
  refine .bind .of_get fun solver => ?_
  split
  · refine .bind (.of_ofExcept _) fun text => ?_
    exact .of_report _ _ _
  · exact .of_pure _

/-- A report of a form is made only by a verbose solver, and stops it only where the form cannot be printed. -/
theorem reportForm_error (run : reportForm settings unknown form before = (.error fault, after)) :
    before.state.verbose = true ∧ fault = fault.cause.unplaced ∧
      (before.state.style settings).form settings.anonymousWord form = .error fault.cause := by
  unfold reportForm at run
  rw [Action.run_bind_of_ok Action.run_get] at run
  by_cases verbose : before.state.verbose = true
  · rw [if_pos verbose] at run
    rcases Action.run_bind_eq_error run with failed | ⟨text, middle, _, reported⟩
    · obtain ⟨error, placed, _⟩ := Action.run_ofExcept_eq_error failed
      exact ⟨verbose, placed, error⟩
    · cases reported
  · rw [if_neg verbose] at run
    cases run

/-- Marking a name as solved always succeeds, and changes nothing but the list of solved names. -/
theorem markSolved_run (form : Form) (unknown : Unknown) (before : Traced Solver) :
    (markSolved form unknown before).1 = .ok () ∧
      (markSolved form unknown before).2.state =
        { before.state with
          solved :=
            match unknown with
            | .anonymous _ => before.state.solved
            | .named name =>
              if form.isConstant then place name form.constant before.state.solved
              else before.state.solved } := by
  cases unknown with
  | anonymous serial => exact ⟨rfl, rfl⟩
  | named name =>
      by_cases constant : form.isConstant = true
      · simp only [markSolved, constant, ↓reduceIte]
        exact ⟨rfl, rfl⟩
      · simp only [markSolved, constant, Bool.false_eq_true, ↓reduceIte]
        exact ⟨rfl, rfl⟩

theorem record_of_not_recordable (beyond : ¬ IsRecordable form) (before : Traced Solver) :
    record settings unknown form before =
      (.error (Cause.solving (.valueRange (unknown.text settings.anonymousWord))).unplaced,
        before) := by
  have outside : (form.isConstant && !form.constant.isFinite) = true := by
    simpa [IsRecordable] using beyond
  rw [record, if_pos outside]
  rfl

/-- A form that may be recorded is placed among the known ones, then reported, and its unknown is
marked. -/
theorem record_of_recordable (recordable : IsRecordable form) (before : Traced Solver) :
    record settings unknown form before =
      (reportForm settings unknown form >>= fun _ => markSolved form unknown)
        ⟨{ before.state with known := place unknown form before.state.known }, before.log⟩ := by
  have within : (form.isConstant && !form.constant.isFinite) = false := by
    simpa [IsRecordable] using recordable
  rw [record, within, if_neg Bool.false_ne_true, Action.run_bind_of_ok (Action.run_modify _)]

/-- A form that is recorded can be, and is then the form of its unknown. -/
theorem record_ok (run : record settings unknown form before = (.ok (), after)) :
    IsRecordable form ∧ after.state = before.state.assign unknown form := by
  have recordable : IsRecordable form := by
    by_contra beyond
    rw [record_of_not_recordable beyond] at run
    cases run
  refine ⟨recordable, ?_⟩
  rw [record_of_recordable recordable] at run
  obtain ⟨_, reported, report, run⟩ := Action.run_bind_eq_ok run
  have same : (reportForm settings unknown form _).2.state = _ :=
    reportForm_keeps (· = { before.state with known := place unknown form before.state.known })
      ⟨_, before.log⟩ rfl
  rw [report] at same
  have marked := (markSolved_run form unknown reported).2
  rw [run, same] at marked
  exact marked

/-- Why recording a form under an unknown stops. -/
inductive RecordFault (settings : Settings) (verbose : Bool) (style : Style) (unknown : Unknown)
    (form : Form) : Cause → Prop
  /-- The form is a constant beyond the range of doubles. -/
  | range (beyond : ¬ IsRecordable form) :
    RecordFault settings verbose style unknown form
      (.solving (.valueRange (unknown.text settings.anonymousWord)))
  /-- The form has been recorded and cannot be described. -/
  | description {cause : Cause} (reported : verbose = true) (recordable : IsRecordable form)
    (error : style.form settings.anonymousWord form = .error cause) :
    RecordFault settings verbose style unknown form cause

/-- Recording a form stops with one of its faults: a constant out of range, or a form that cannot be described. -/
theorem record_error (run : record settings unknown form before = (.error fault, after)) :
    fault = fault.cause.unplaced ∧
      RecordFault settings before.state.verbose (before.state.style settings) unknown form
        fault.cause := by
  by_cases recordable : IsRecordable form
  · rw [record_of_recordable recordable] at run
    rcases Action.run_bind_eq_error run with failed | ⟨_, middle, _, marked⟩
    · obtain ⟨verbose, placed, error⟩ := reportForm_error failed
      exact ⟨placed, .description verbose recordable error⟩
    · have success := (markSolved_run form unknown middle).1
      rw [marked] at success
      cases success
  · rw [record_of_not_recordable recordable] at run
    cases run
    exact ⟨rfl, .range recordable⟩

/-- Whether recording a form under an unknown keeps a property of solvers. -/
structure Untouched (P : Solver → Prop) (unknown : Unknown) : Prop where
  placing : ∀ form solver, P solver → P { solver with known := place unknown form solver.known }
  marking : ∀ name number solver, unknown = .named name → P solver →
    P { solver with solved := place name number solver.solved }

section Keeps

variable {P : Solver → Prop}

/-- Marking keeps every property that placing a solved name keeps. -/
theorem markSolved_keeps
    (marking : ∀ name number solver, unknown = .named name → P solver →
      P { solver with solved := place name number solver.solved }) (form : Form) :
    Action.Keeps P (markSolved form unknown) := by
  cases unknown with
  | anonymous serial => exact .of_pure _
  | named name =>
      by_cases constant : form.isConstant = true
      · rw [markSolved, if_pos constant]
        refine .bind (.of_modify fun solver => marking name form.constant solver rfl) fun _ => ?_
        exact .of_report _ _ _
      · rw [markSolved, if_neg constant]
        exact .of_pure _

theorem record_keeps (untouched : Untouched P unknown) :
    Action.Keeps P (record settings unknown form) := by
  unfold record
  split
  · exact .of_failWith _
  · refine .bind (.of_modify (untouched.placing form)) fun _ => ?_
    refine .bind (reportForm_keeps P) fun _ => ?_
    exact markSolved_keeps untouched.marking form

end Keeps

/-- A form that may be recorded is recorded, even if it cannot be described. -/
theorem valueOf?_record (recordable : IsRecordable form) (before : Traced Solver) :
    valueOf? unknown (record settings unknown form before).2.state.known = some form := by
  have keeps : Action.Keeps (fun solver : Solver => valueOf? unknown solver.known = some form)
      (reportForm settings unknown form >>= fun _ => markSolved form unknown) := by
    refine .bind (reportForm_keeps _) fun _ => ?_
    exact markSolved_keeps (fun _ _ _ _ holds => holds) form
  rw [record_of_recordable recordable]
  exact keeps _ (valueOf?_place_self ..)

/-- Whether a form can be described, where that is asked for. -/
def CanDescribe (settings : Settings) (solver : Solver) (form : Form) : Prop :=
  solver.verbose = true →
    ∃ text, (solver.style settings).form settings.anonymousWord form = .ok text

/-- A number that may be recorded and described is counted as solved under the name. -/
theorem valueOf?_solved_record {name : String} {number : Number}
    (recordable : IsRecordable (.ofNumber number))
    (describable : before.state.CanDescribe settings (.ofNumber number)) :
    valueOf? name (record settings (.named name) (.ofNumber number) before).2.state.solved =
      some number := by
  rcases run : record settings (.named name) (.ofNumber number) before with ⟨fault | _, after⟩
  · obtain ⟨_, why⟩ := record_error run
    generalize fault.cause = cause at why
    cases why with
    | range beyond => exact absurd recordable beyond
    | description reported _ error =>
        obtain ⟨text, described⟩ := describable reported
        rw [described] at error
        cases error
  · have state := (record_ok run).2
    rw [state]
    exact valueOf?_place_self name number before.state.solved

/-! ## Substituting -/

/-- An entry that mentions the unknown is rewritten to a form that can be recorded; any other one stays. -/
theorem substituteOne_ok {entry : Unknown × Form}
    (run : substituteOne settings unknown solution entry before = (.ok (), after)) :
    (entry.2.mentions unknown = true →
        IsRecordable (rewritten settings unknown solution entry.2)) ∧
      after.state = before.state.rewriteOne settings unknown solution entry := by
  by_cases mentioned : entry.2.mentions unknown = true
  · rw [substituteOne, if_pos mentioned] at run
    obtain ⟨changed, middle, first, recorded⟩ := Action.run_bind_eq_ok run
    obtain ⟨simplification, rfl⟩ := Action.run_ofExcept_eq_ok first
    obtain ⟨recordable, state⟩ := record_ok recorded
    rw [rewriteOne, if_pos mentioned, rewritten, if_pos mentioned,
      ← simplified_eq_ok simplification]
    exact ⟨fun _ => recordable, state⟩
  · rw [substituteOne, if_neg mentioned] at run
    cases run
    exact ⟨fun present => (mentioned present).elim, (if_neg mentioned).symm⟩

/-- All entries that mention the unknown are rewritten, one after another. -/
theorem substituteAll_ok {entries : List (Unknown × Form)}
    (run : substituteAll settings unknown solution entries before = (.ok (), after)) :
    (∀ entry ∈ entries, entry.2.mentions unknown = true →
        IsRecordable (rewritten settings unknown solution entry.2)) ∧
      after.state = before.state.rewriteAll settings unknown solution entries := by
  induction entries generalizing before with
  | nil =>
      cases run
      exact ⟨by simp, rfl⟩
  | cons entry rest ih =>
      obtain ⟨_, middle, first, later⟩ := Action.run_bind_eq_ok run
      obtain ⟨recordable, state⟩ := substituteOne_ok first
      obtain ⟨others, final⟩ := ih later
      rw [rewriteAll, ← state]
      exact ⟨List.forall_mem_cons.mpr ⟨recordable, others⟩, final⟩

/-- Why putting the form of an unknown into the form of an entry stops. -/
inductive SubstitutionFault (settings : Settings) (verbose : Bool) (style : Style)
    (unknown : Unknown) (solution : Form) (entry : Unknown × Form) : Cause → Prop
  | modulus (beyond : (entry.2.substitute unknown solution).someModulusOverflows = true) :
    SubstitutionFault settings verbose style unknown solution entry .modulusRange
  | record {cause : Cause}
    (fault : RecordFault settings verbose style entry.1
      ((entry.2.substitute unknown solution).simplify settings.cutoff) cause) :
    SubstitutionFault settings verbose style unknown solution entry cause

/-- Only an entry that mentions the unknown can stop a substitution. -/
theorem substituteOne_error {entry : Unknown × Form}
    (run : substituteOne settings unknown solution entry before = (.error fault, after)) :
    fault = fault.cause.unplaced ∧ entry.2.mentions unknown = true ∧
      SubstitutionFault settings before.state.verbose (before.state.style settings) unknown solution
        entry fault.cause := by
  by_cases mentioned : entry.2.mentions unknown = true
  · rw [substituteOne, if_pos mentioned] at run
    rcases Action.run_bind_eq_error run with failed | ⟨changed, middle, first, recorded⟩
    · obtain ⟨error, placed, _⟩ := Action.run_ofExcept_eq_error failed
      obtain ⟨modulus, beyond⟩ := simplified_eq_error error
      rw [modulus]
      exact ⟨modulus ▸ placed, mentioned, .modulus beyond⟩
    · obtain ⟨simplification, rfl⟩ := Action.run_ofExcept_eq_ok first
      obtain ⟨placed, fault⟩ := record_error recorded
      rw [simplified_eq_ok simplification] at fault
      exact ⟨placed, mentioned, .record fault⟩
  · rw [substituteOne, if_neg mentioned] at run
    cases run

theorem rewriteOne_eq (solver : Solver) (entry : Unknown × Form) :
    ∃ known solved, solver.rewriteOne settings unknown solution entry =
      { solver with known, solved } := by
  by_cases mentioned : entry.2.mentions unknown = true
  · rw [rewriteOne, if_pos mentioned]
    exact ⟨_, _, rfl⟩
  · rw [rewriteOne, if_neg mentioned]
    exact ⟨_, _, rfl⟩

/-- A substitution stops at one of the entries that mention the unknown. -/
theorem substituteAll_error {entries : List (Unknown × Form)}
    (run : substituteAll settings unknown solution entries before = (.error fault, after)) :
    fault = fault.cause.unplaced ∧ ∃ entry ∈ entries, entry.2.mentions unknown = true ∧
      SubstitutionFault settings before.state.verbose (before.state.style settings) unknown solution
        entry fault.cause := by
  induction entries generalizing before with
  | nil => cases run
  | cons entry rest ih =>
      rcases Action.run_bind_eq_error run with failed | ⟨_, middle, first, later⟩
      · obtain ⟨placed, mentioned, why⟩ := substituteOne_error failed
        exact ⟨placed, entry, List.mem_cons_self .., mentioned, why⟩
      · obtain ⟨placed, found, member, mentioned, why⟩ := ih later
        obtain ⟨known, solved, rest⟩ := rewriteOne_eq before.state entry
        rw [(substituteOne_ok first).2, rest] at why
        exact ⟨placed, found, List.mem_cons_of_mem _ member, mentioned, why⟩

/-- A substitution keeps a property that no entry which mentions the unknown touches. -/
theorem substituteAll_keeps {P : Solver → Prop} {entries : List (Unknown × Form)}
    (untouched : ∀ entry ∈ entries, entry.2.mentions unknown = true → Untouched P entry.1) :
    Action.Keeps P (substituteAll settings unknown solution entries) := by
  induction entries with
  | nil => exact .of_pure _
  | cons entry rest ih =>
      obtain ⟨first, others⟩ := List.forall_mem_cons.mp untouched
      have one : Action.Keeps P (substituteOne settings unknown solution entry) := by
        by_cases mentioned : entry.2.mentions unknown = true
        · rw [substituteOne, if_pos mentioned]
          refine .bind (.of_ofExcept _) fun changed => ?_
          exact record_keeps (first mentioned)
        · rw [substituteOne, if_neg mentioned]
          exact .of_pure _
      exact .bind one fun _ => ih others

/-! ## Installing a pivot -/

/-- The solver with a pivot assigned and put into the other forms. -/
def installed (settings : Settings) (unknown : Unknown) (solution : Form) (solver : Solver) :
    Solver :=
  (solver.assign unknown solution).rewriteAll settings unknown solution
    (place unknown solution solver.known)

theorem install_of_not_recordable (beyond : ¬ IsRecordable solution) (before : Traced Solver) :
    install settings unknown solution before =
      (.error (Cause.solving (.valueRange (unknown.text settings.anonymousWord))).unplaced,
        before) :=
  Action.run_bind_of_error (record_of_not_recordable beyond before)

/-- An installation changes nothing of the solver but the known forms and the solved names. -/
theorem installed_eq (settings : Settings) (unknown : Unknown) (solution : Form) (solver : Solver) :
    ∃ known solved, solver.installed settings unknown solution = { solver with known, solved } := by
  have rewriting : ∀ entries (start : Solver),
      ∃ known solved, start.rewriteAll settings unknown solution entries =
        { start with known, solved } := by
    intro entries
    induction entries with
    | nil => exact fun start => ⟨_, _, rfl⟩
    | cons entry rest ih =>
        intro start
        obtain ⟨known, solved, first⟩ := rewriteOne_eq start entry
        rw [rewriteAll, first]
        exact ih { start with known, solved }
  exact rewriting _ (solver.assign unknown solution)

theorem install_keeps {P : Solver → Prop} (untouched : ∀ unknown, Untouched P unknown) :
    Action.Keeps P (install settings unknown solution) := by
  refine .bind (record_keeps (untouched unknown)) fun _ => ?_
  refine .bind .of_get fun solver => ?_
  exact substituteAll_keeps fun entry _ _ => untouched entry.1

theorem install_ok (run : install settings unknown solution before = (.ok (), after)) :
    IsRecordable solution ∧
      (∀ entry ∈ place unknown solution before.state.known, entry.2.mentions unknown = true →
        IsRecordable (rewritten settings unknown solution entry.2)) ∧
      after.state = before.state.installed settings unknown solution := by
  obtain ⟨_, middle, first, later⟩ := Action.run_bind_eq_ok run
  rw [Action.run_bind_of_ok Action.run_get] at later
  obtain ⟨recordable, state⟩ := record_ok first
  obtain ⟨others, final⟩ := substituteAll_ok later
  rw [state] at others final
  exact ⟨recordable, others, final⟩

/-- Installing a solution stops when it is recorded, or at one of the entries that mention the unknown. -/
theorem install_error (run : install settings unknown solution before = (.error fault, after)) :
    fault = fault.cause.unplaced ∧
      (RecordFault settings before.state.verbose (before.state.style settings) unknown solution
          fault.cause ∨
        ∃ entry ∈ place unknown solution before.state.known, entry.2.mentions unknown = true ∧
          SubstitutionFault settings before.state.verbose (before.state.style settings) unknown
            solution entry fault.cause) := by
  rcases Action.run_bind_eq_error run with failed | ⟨_, middle, first, later⟩
  · obtain ⟨placed, why⟩ := record_error failed
    exact ⟨placed, .inl why⟩
  · rw [Action.run_bind_of_ok Action.run_get] at later
    obtain ⟨placed, why⟩ := substituteAll_error later
    rw [(record_ok first).2] at why
    exact ⟨placed, .inr why⟩

section Recorded

variable (distinct : (before.state.known.map Prod.fst).Nodup) (absent : unknown ∉ solution.unknowns)
include distinct absent

/-- What holds once the form of a pivot is recorded, and does not depend on other unknowns, still holds
when the other forms are rewritten, even if they cannot all be. -/
theorem install_of_record {P : Solver → Prop}
    (recorded : P (record settings unknown solution before).2.state)
    (untouched : ∀ other, other ≠ unknown → Untouched P other) :
    P (install settings unknown solution before).2.state := by
  unfold install
  rcases run : record settings unknown solution before with ⟨_ | _, middle⟩
  · rw [Action.run_bind_of_error run]
    rwa [run] at recorded
  · rw [Action.run_bind_of_ok run, Action.run_bind_of_ok Action.run_get]
    rw [run] at recorded
    have known : middle.state.known = place unknown solution before.state.known := by
      rw [(record_ok run).2]
      rfl
    have distinctNow : (middle.state.known.map Prod.fst).Nodup :=
      known ▸ nodup_place distinct unknown solution
    have pivot : valueOf? unknown middle.state.known = some solution :=
      known ▸ valueOf?_place_self unknown solution before.state.known
    refine substituteAll_keeps (fun entry member mentioned => untouched _ fun same => ?_) middle recorded
    -- The form of the pivot is the one entry that must not be rewritten, and it is not.
    have found := (valueOf?_eq_some_iff distinctNow).mpr member
    rw [same, pivot] at found
    cases found
    exact absent ((Form.mentions_iff _ _).mp mentioned)

/-- Once its form is recorded, a pivot keeps it, even if the other forms cannot all be rewritten. -/
theorem valueOf?_install (recordable : IsRecordable solution) :
    valueOf? unknown (install settings unknown solution before).2.state.known = some solution := by
  refine install_of_record (P := fun solver => valueOf? unknown solver.known = some solution)
    distinct absent (valueOf?_record recordable before) fun other different => ?_
  exact
    { placing := fun _ _ holds => (valueOf?_place_of_ne different.symm).trans holds
      marking := fun _ _ _ _ holds => holds }

end Recorded

/-- Once it is counted as solved, a name stays so, even if the other forms cannot all be rewritten. -/
theorem valueOf?_solved_install {name : String} {number : Number}
    (distinct : (before.state.known.map Prod.fst).Nodup) (recordable : IsRecordable (.ofNumber number))
    (describable : before.state.CanDescribe settings (.ofNumber number)) :
    valueOf? name (install settings (.named name) (.ofNumber number) before).2.state.solved =
      some number := by
  refine install_of_record (P := fun solver => valueOf? name solver.solved = some number)
    distinct (by simp) (valueOf?_solved_record recordable describable) fun other different => ?_
  refine
    { placing := fun _ _ holds => holds
      marking := fun found _ _ same holds => (valueOf?_place_of_ne fun equal => ?_).trans holds }
  exact different (same.trans (congrArg Unknown.named equal.symm))

end Solver

end EquationText
