import EquationText.Proofs.Action.Comparison
import EquationText.Proofs.Solver.Translation
import EquationText.Solver.Command

/-! # Solvers with other room, reports and precisions

How much room there is for operands, whether equations and forms are reported, and with how many digits
values are printed, makes no difference to what two solvers do (`EquationText.Solver.solve_relates`,
`EquationText.Solver.command_relates`), with one exception: a solver that reports stops when the modulus of
something it has to describe is beyond the range of doubles, and one that does not report goes on.
-/

namespace EquationText

namespace Solver

/-- Whether two solvers are the same but for their room, reporting and the precision: their rooms are
related, they have the given flags for reporting unless these are the same by now, and have the same
precision if that is asked for. Where something but the room differs the precisions are usual ones. -/
structure Matches (rooms : Int → Int → Prop) (flags : Bool × Bool) (samePrecision : Bool)
    (a b : Solver) : Prop where
  known : a.known = b.known
  solved : a.solved = b.solved
  created : a.created = b.created
  maxDepth : rooms a.maxDepth b.maxDepth
  closed : a.closed = b.closed
  verbose : a.verbose = b.verbose ∨ (a.verbose, b.verbose) = flags
  precision : samePrecision = true → a.precision = b.precision
  usual : flags.1 = flags.2 ∧ samePrecision = true ∨
    IsUsualPrecision a.precision ∧ IsUsualPrecision b.precision

/-- The comparison of two solvers: a solver that reports may be stopped by a modulus beyond the range of
doubles where the other one is not. -/
def comparison (rooms : Int → Int → Prop) (flags : Bool × Bool) (samePrecision : Bool) :
    Comparison Solver Solver where
  states := Matches rooms flags samePrecision
  faults fault found := fault = found ∧ fault.line = none
  left fault := fault = Cause.modulusRange.unplaced ∧ flags = (true, false)
  right fault := fault = Cause.modulusRange.unplaced ∧ flags = (false, true)

variable {settings : Settings} {rooms : Int → Int → Prop} {flags : Bool × Bool} {samePrecision : Bool}
  {a b : Solver}

theorem comparison_faults (cause : Cause) :
    (comparison rooms flags samePrecision).faults cause.unplaced cause.unplaced := ⟨rfl, rfl⟩

namespace Matches

variable (same : a.Matches rooms flags samePrecision b)
include same

/-- Two solvers print with the same style, or each with one that the number format takes. -/
theorem styles (settings : Settings) :
    a.style settings = b.style settings ∨
      (a.style settings).IsPrintable ∧ (b.style settings).IsPrintable := by
  rcases same.usual with ⟨_, precision⟩ | ⟨first, second⟩
  · exact .inl (congrArg (Style.mk settings.cutoff) (same.precision precision))
  · exact .inr ⟨isPrintable_of_isUsualPrecision first, isPrintable_of_isUsualPrecision second⟩

/-- Whether a form has a text does not depend on the precision. -/
theorem form_alike (form : Form) :
    (comparison rooms flags samePrecision).Alike (fun _ _ => True)
      ((a.style settings).form settings.anonymousWord form)
      ((b.style settings).form settings.anonymousWord form) := by
  rcases same.styles settings with styles | ⟨first, second⟩
  · rw [styles]
    cases (b.style settings).form settings.anonymousWord form with
    | ok text => exact .ok trivial
    | error cause => exact .error (comparison_faults cause)
  · cases described : (a.style settings).form settings.anonymousWord form <;>
      cases other : (b.style settings).form settings.anonymousWord form
    · rw [Style.form_error_of_isPrintable first described, Style.form_error_of_isPrintable second other]
      exact .error (comparison_faults _)
    · rcases Style.form_error described with digits | ⟨_, beyond⟩
      · rw [Style.digits_of_isPrintable first] at digits
        cases digits
      · exact (Style.not_modulusOverflows_of_form other beyond).elim
    · rcases Style.form_error other with digits | ⟨_, beyond⟩
      · rw [Style.digits_of_isPrintable second] at digits
        cases digits
      · exact (Style.not_modulusOverflows_of_form described beyond).elim
    · exact .ok trivial

theorem describeValue_alike (value : Value) :
    (comparison rooms flags samePrecision).Alike (fun _ _ => True) (a.describeValue settings value)
      (b.describeValue settings value) := by
  cases value with
  | form form => exact same.form_alike form
  | infinite => exact .ok trivial

/-- References are answered with the same precision alike, and with any other one at least. -/
theorem translate_alike (reference : String) :
    (comparison rooms flags samePrecision).Alike (fun text other => samePrecision = true → text = other)
      (a.translate settings reference) (b.translate settings reference) := by
  have equal : a.precision = b.precision →
      (comparison rooms flags samePrecision).Alike (fun text other => samePrecision = true → text = other)
        (a.translate settings reference) (b.translate settings reference) := by
    intro precision
    rw [translate_congr same.solved precision]
    cases b.translate settings reference with
    | ok text => exact .ok fun _ => rfl
    | error cause => exact .error (comparison_faults cause)
  rcases same.usual with ⟨_, precision⟩ | ⟨first, second⟩
  · exact equal (same.precision precision)
  cases asked : samePrecision with
  | true =>
      have alike := equal (same.precision asked)
      rwa [asked] at alike
  | false =>
      obtain ⟨text, firstAnswer⟩ := exists_translate settings first reference
      obtain ⟨other, secondAnswer⟩ := exists_translate settings second reference
      rw [firstAnswer, secondAnswer]
      exact .ok nofun

theorem translateAll_alike (names : List String) :
    (comparison rooms flags samePrecision).Alike (fun _ _ => True) (a.translateAll settings names)
      (b.translateAll settings names) := by
  induction names with
  | nil => exact .ok trivial
  | cons name rest ih =>
      exact (same.translate_alike name).bind fun _ _ _ => ih.bind fun _ _ _ => .ok trivial

/-- Which of the two solvers report: both or none, or only one of them as at the start. -/
theorem reports :
    a.verbose = b.verbose ∨
      (a.verbose = true ∧ b.verbose = false ∧ flags = (true, false) ∨
          a.verbose = false ∧ b.verbose = true ∧ flags = (false, true)) ∧
        IsUsualPrecision a.precision ∧ IsUsualPrecision b.precision := by
  rcases same.verbose with equal | differ
  · exact .inl equal
  by_cases equal : a.verbose = b.verbose
  · exact .inl equal
  refine .inr ⟨?_, same.usual.resolve_left fun alike => equal ?_⟩
  · subst differ
    cases first : a.verbose <;> cases second : b.verbose <;> simp_all
  · subst differ
    exact alike.1

theorem evaluate_eq (expr : Expr) : a.evaluate settings expr = b.evaluate settings expr := by
  have forms : a.formOf = b.formOf := by
    funext unknown
    rw [formOf, formOf, same.known]
  have combined : a.combineInRange settings = b.combineInRange settings := by
    funext node operands
    unfold combineInRange combine
    rw [forms]
  rw [evaluate, evaluate, operandOf, operandOf, combined]

end Matches

/-! ## Solving -/

section Relates

variable (rooms : Int → Int → Prop) (flags : Bool × Bool) (samePrecision : Bool)

/-- What is described only where reporting is on may stop a run alone. -/
theorem loud_relates {first second : Action Solver Unit} (same : a.Matches rooms flags samePrecision b)
    (both : (comparison rooms flags samePrecision).Relates (fun _ _ => True) first second)
    (left : IsUsualPrecision a.precision → first.IsQuiet (· = Cause.modulusRange.unplaced))
    (right : IsUsualPrecision b.precision → second.IsQuiet (· = Cause.modulusRange.unplaced)) :
    (comparison rooms flags samePrecision).Relates (fun _ _ => True)
      (if a.verbose then first else pure ()) (if b.verbose then second else pure ()) := by
  rcases same.reports with equal | ⟨⟨on, off, given⟩ | ⟨off, on, given⟩, firstUsual, secondUsual⟩
  · rw [equal]
    cases b.verbose with
    | true => exact both
    | false => exact .of_pure trivial
  · rw [if_pos on, if_neg (by simp [off])]
    exact .pure_right (fun before => ⟨(left firstUsual before).1,
      fun fault failed => ⟨(left firstUsual before).2 fault failed, given⟩⟩) fun _ => trivial
  · rw [if_pos on, if_neg (by simp [off])]
    exact .pure_left (fun before => ⟨(right secondUsual before).1,
      fun fault failed => ⟨(right secondUsual before).2 fault failed, given⟩⟩) fun _ => trivial

theorem form_isQuiet {solver : Solver} (usual : IsUsualPrecision solver.precision) (form : Form) :
    (Action.ofExcept ((solver.style settings).form settings.anonymousWord form) :
      Action Solver String).IsQuiet (· = Cause.modulusRange.unplaced) := by
  refine .of_ofExcept fun cause error => ?_
  rw [Style.form_error_of_isPrintable (isPrintable_of_isUsualPrecision usual) error]

theorem describeValue_isQuiet {solver : Solver} (usual : IsUsualPrecision solver.precision) (value : Value) :
    (Action.ofExcept (solver.describeValue settings value) :
      Action Solver String).IsQuiet (· = Cause.modulusRange.unplaced) := by
  cases value with
  | form form => exact form_isQuiet usual form
  | infinite => exact .of_ofExcept nofun

theorem reportForm_relates (unknown : Unknown) (form : Form) :
    (comparison rooms flags samePrecision).Relates (fun _ _ => True) (reportForm settings unknown form)
      (reportForm settings unknown form) := by
  refine .bind .of_get fun a b same => loud_relates rooms flags samePrecision same ?_ ?_ ?_
  · exact .bind (.of_ofExcept (same.form_alike form)) fun _ _ _ => .of_report
  · exact fun usual => .bind (form_isQuiet usual form) fun _ => .of_report
  · exact fun usual => .bind (form_isQuiet usual form) fun _ => .of_report

theorem reportEquation_relates (left right : Value) :
    (comparison rooms flags samePrecision).Relates (fun _ _ => True) (reportEquation settings left right)
      (reportEquation settings left right) := by
  refine .bind .of_get fun a b same => loud_relates rooms flags samePrecision same ?_ ?_ ?_
  · exact .bind (.of_ofExcept (same.describeValue_alike left)) fun _ _ _ =>
      .bind (.of_ofExcept (same.describeValue_alike right)) fun _ _ _ => .of_report
  · exact fun usual => .bind (describeValue_isQuiet usual left) fun _ =>
      .bind (describeValue_isQuiet usual right) fun _ => .of_report
  · exact fun usual => .bind (describeValue_isQuiet usual left) fun _ =>
      .bind (describeValue_isQuiet usual right) fun _ => .of_report

theorem markSolved_relates (form : Form) (unknown : Unknown) :
    (comparison rooms flags samePrecision).Relates (fun _ _ => True) (markSolved form unknown)
      (markSolved form unknown) := by
  cases unknown with
  | anonymous serial => exact .of_pure trivial
  | named name =>
      rw [markSolved]
      split
      · refine .bind (.of_modify fun a b same => ?_) fun _ _ _ => .of_report
        exact { same with solved := by rw [same.solved] }
      · exact .of_pure trivial

theorem record_relates (unknown : Unknown) (form : Form) :
    (comparison rooms flags samePrecision).Relates (fun _ _ => True) (record settings unknown form)
      (record settings unknown form) := by
  unfold record
  split
  · exact .of_failWith (comparison_faults _)
  · refine .bind (.of_modify fun a b same => ?_) fun _ _ _ =>
      .bind (reportForm_relates rooms flags samePrecision unknown form) fun _ _ _ =>
        markSolved_relates rooms flags samePrecision form unknown
    exact { same with known := by rw [same.known] }

theorem ofExcept_relates {α : Type} (computation : Except Cause α) :
    (comparison rooms flags samePrecision).Relates (· = ·) (Action.ofExcept computation)
      (Action.ofExcept computation) := by
  cases computation with
  | ok result => exact .of_pure rfl
  | error cause => exact .of_failWith (comparison_faults cause)

/-- The forms of all entries are rewritten alike, whatever is reported in between. -/
theorem substituteAll_relates (unknown : Unknown) (solution : Form) (entries : List (Unknown × Form)) :
    (comparison rooms flags samePrecision).Relates (fun _ _ => True)
      (substituteAll settings unknown solution entries)
      (substituteAll settings unknown solution entries) := by
  induction entries with
  | nil => exact .of_pure trivial
  | cons entry rest ih =>
      rw [substituteAll]
      refine .bind (?_ : (comparison rooms flags samePrecision).Relates (fun _ _ => True) _ _) fun _ _ _ => ih
      unfold substituteOne
      split
      · refine .bind (ofExcept_relates rooms flags samePrecision _) fun changed _ equal => ?_
        subst equal
        exact record_relates rooms flags samePrecision entry.1 changed
      · exact .of_pure trivial

theorem equate_relates (left right : Value) :
    (comparison rooms flags samePrecision).Relates (fun _ _ => True) (equate settings left right)
      (equate settings left right) := by
  unfold equate
  split
  · refine .bind (ofExcept_relates rooms flags samePrecision _) fun pivot _ equal => ?_
    subst equal
    refine .bind (record_relates rooms flags samePrecision pivot.1 pivot.2) fun _ _ _ =>
      .bind .of_get fun a b same => ?_
    rw [show a.known = b.known from same.known]
    exact substituteAll_relates rooms flags samePrecision pivot.1 pivot.2 b.known
  · exact .of_failWith (comparison_faults _)

theorem valueOf_relates (expr : Expr) :
    (comparison rooms flags samePrecision).Relates (· = ·) (valueOf settings expr) (valueOf settings expr) := by
  refine .bind .of_get fun a b same => ?_
  rw [show a.evaluate settings expr = b.evaluate settings expr from same.evaluate_eq expr,
    show a.created = b.created from same.created]
  refine .bind (ofExcept_relates rooms flags samePrecision _) fun valued _ equal => ?_
  subst equal
  refine .bind (.of_modify fun a b same => ?_) fun _ _ _ => .of_pure rfl
  exact { same with created := rfl }

/-- Solving an equation makes two solvers that match do the same. -/
theorem solve_relates (equation : Expr) :
    (comparison rooms flags samePrecision).Relates (fun _ _ => True) (solve settings equation)
      (solve settings equation) := by
  unfold solve
  split
  · rename_i left right
    refine .bind .of_report fun _ _ _ => ?_
    refine .bind (valueOf_relates rooms flags samePrecision left) fun leftValue _ equal => ?_
    subst equal
    refine .bind (valueOf_relates rooms flags samePrecision right) fun rightValue _ equal => ?_
    subst equal
    refine .bind (reportEquation_relates rooms flags samePrecision leftValue rightValue) fun _ _ _ => ?_
    refine .bind .of_get fun a b earlier => ?_
    refine .bind (equate_relates rooms flags samePrecision leftValue rightValue) fun _ _ _ => ?_
    refine .bind .of_get fun c d same => ?_
    have names : newNames a c = newNames b d := by
      rw [newNames, newNames, show a.solved = b.solved from earlier.solved,
        show c.solved = d.solved from same.solved]
    rw [names]
    exact .of_ofExcept (same.translateAll_alike _)
  · exact .of_failWith (comparison_faults _)

/-! ## Commands -/

/-- The command for showing names reports the same values in the same order. -/
theorem showNames_relates (words : List (List Char)) :
    (comparison rooms flags samePrecision).Relates (fun _ _ => True) (showNames settings words)
      (showNames settings words) := by
  induction words with
  | nil => exact .of_pure trivial
  | cons word rest ih =>
      unfold showNames
      simp only
      split
      · refine .bind .of_get fun a b same => ?_
        have forms : a.formOf (.named (String.ofList word)) = b.formOf (.named (String.ofList word)) := by
          rw [formOf, formOf, show a.known = b.known from same.known]
        unfold describe
        rw [forms]
        exact .bind (.of_ofExcept (Matches.form_alike same _)) fun _ _ _ => .bind .of_report fun _ _ _ => ih
      · exact .of_failWith (comparison_faults _)

/-- A command makes two solvers that match do the same. -/
theorem command_relates (name payload : String) :
    (comparison rooms flags samePrecision).Relates (fun _ _ => True) (command settings name payload)
      (command settings name payload) := by
  unfold command
  simp only
  split
  · unfold setVerbose
    split
    · exact .of_modify fun a b same => { same with verbose := .inl rfl }
    · exact .of_failWith (comparison_faults _)
  · unfold showForms
    split
    · exact .of_failWith (comparison_faults _)
    · exact showNames_relates rooms flags samePrecision _
  · unfold setDigits
    split
    · exact .of_failWith (comparison_faults _)
    · split
      · rename_i digits _ inRange
        have usual : IsUsualPrecision digits := isUsualPrecision_of_accepted inRange
        exact .of_modify fun a b same =>
          { same with precision := fun _ => rfl, usual := .inr ⟨usual, usual⟩ }
      · exact .of_failWith (comparison_faults _)
  · exact .of_failWith (comparison_faults _)

end Relates

end Solver

end EquationText
