import EquationText.Proofs.Form.Range
import EquationText.Proofs.Solver.Agreement
import EquationText.Proofs.Solver.Translation

/-! # Why solving stops short

Solving an equation can stop although nothing is wrong with the equation: the precision is not one
that the number format takes, or a form that is met on the way is out of the range of doubles
(`EquationText.Solver.StopsShort`). Apart from the verdicts on an equation whose unknowns cancel there
is no other reason, be it before a pivot is found (`EquationText.Solver.nextPivot_error`) or after
(`EquationText.Solver.solve_error_of_nextPivot`).
-/

namespace EquationText

namespace Solver

variable {settings : Settings} {solver : Solver} {before after : Traced Solver} {equation : Expr}
  {fault : Fault} {cause : Cause} {difference form left right solution : Form} {unknown : Unknown}
  {created : Nat}

/-! ## Values beyond the range of doubles -/

/-- Whether a fault says that a value is beyond the range of doubles. -/
def IsRangeCause (cause : Cause) : Prop :=
  cause = .modulusRange ∨ ∃ name, cause = .solving (.valueRange name)

/-- Why a form cannot be recorded or described: the precision is not one that the number format takes,
or the form is out of range. -/
def LeavesRange (style : Style) (form : Form) (cause : Cause) : Prop :=
  style.digits = .error cause ∨ IsRangeCause cause ∧ ¬ form.IsInRange

theorem LeavesRange.of_simplify {style : Style} {cutoff : Rat}
    (leaves : LeavesRange style (form.simplify cutoff) cause) : LeavesRange style form cause :=
  leaves.imp id fun ⟨range, outside⟩ => ⟨range, mt Form.IsInRange.simplify outside⟩

theorem leavesRange_of_form_error {style : Style} {word : String}
    (error : style.form word form = .error cause) : LeavesRange style form cause := by
  rcases Style.form_error error with digits | ⟨rfl, beyond⟩
  · exact .inl digits
  · refine .inr ⟨.inl rfl, fun inRange => ?_⟩
    rcases beyond with constant | terms
    · rw [inRange.1.2] at constant
      cases constant
    · rw [inRange.2] at terms
      cases terms

theorem isRecordable_of_isInRange (inRange : form.IsInRange) : IsRecordable form :=
  fun _ => inRange.1.1

theorem RecordFault.leavesRange {verbose : Bool} {style : Style}
    (why : RecordFault settings verbose style unknown form cause) : LeavesRange style form cause := by
  cases why with
  | range beyond => exact .inr ⟨.inr ⟨_, rfl⟩, mt isRecordable_of_isInRange beyond⟩
  | description _ _ error => exact leavesRange_of_form_error error

theorem SubstitutionFault.leavesRange {verbose : Bool} {style : Style} {entry : Unknown × Form}
    (why : SubstitutionFault settings verbose style unknown solution entry cause) :
    LeavesRange style (entry.2.substitute unknown solution) cause := by
  cases why with
  | modulus beyond =>
      refine .inr ⟨.inl rfl, fun inRange => ?_⟩
      rw [inRange.2] at beyond
      cases beyond
  | record why => exact why.leavesRange.of_simplify

theorem leavesRange_of_simplified_error {style : Style}
    (error : simplified settings form = .error cause) : LeavesRange style form cause := by
  obtain ⟨rfl, beyond⟩ := simplified_eq_error error
  refine .inr ⟨.inl rfl, fun inRange => ?_⟩
  rw [inRange.2] at beyond
  cases beyond

/-! ## Forms that are met -/

/-- The forms that are met when an equation is solved: its sides and what is simplified. -/
def met (settings : Settings) (solver : Solver) (equation : Expr) : List Form :=
  match solver.sides settings equation with
  | .ok (.form left, .form right, _) =>
    left :: right :: solver.eliminationForms settings (left.sub right)
  | _ => []

/-- Why solving an equation stops although it could be accepted: the precision is not one that the
number format takes, or a form that is met is out of range. -/
def StopsShort (settings : Settings) (solver : Solver) (equation : Expr) (cause : Cause) : Prop :=
  (solver.style settings).digits = .error cause ∨
    IsRangeCause cause ∧ ∃ form ∈ solver.met settings equation, ¬ form.IsInRange

theorem stopsShort_of_leavesRange {form : Form} (member : form ∈ solver.met settings equation)
    (leaves : LeavesRange (solver.style settings) form cause) :
    solver.StopsShort settings equation cause :=
  leaves.imp id fun ⟨range, outside⟩ => ⟨range, form, member, outside⟩

section Sides

variable (ok : solver.sides settings equation = .ok (.form left, .form right, created))
include ok

theorem met_of_sides : solver.met settings equation =
    left :: right :: solver.eliminationForms settings (left.sub right) := by
  rw [met, ok]

/-- A report that fails stops an equation short: a side is out of range, or the number format does not take the
precision. -/
theorem stopsShort_of_checkReport
    (error : solver.checkReport settings (.form left) (.form right) = .error cause) :
    solver.StopsShort settings equation cause := by
  have met := met_of_sides ok
  by_cases verbose : solver.verbose = true
  · rw [checkReport, if_pos verbose] at error
    rcases except_bind_eq_error error with first | ⟨_, _, later⟩
    · exact stopsShort_of_leavesRange (met ▸ List.mem_cons_self ..)
        (leavesRange_of_form_error first)
    · rcases except_bind_eq_error later with second | ⟨_, _, done⟩
      · exact stopsShort_of_leavesRange
          (met ▸ List.mem_cons_of_mem _ (List.mem_cons_self ..)) (leavesRange_of_form_error second)
      · cases done
  · rw [checkReport, if_neg verbose] at error
    cases error

theorem mem_met_of_elimination {form : Form}
    (member : form ∈ solver.eliminationForms settings (left.sub right)) :
    form ∈ solver.met settings equation :=
  met_of_sides ok ▸ List.mem_cons_of_mem _ (List.mem_cons_of_mem _ member)

end Sides

/-! ## The pivot -/

/-- The verdicts on an equation whose unknowns cancel. -/
def IsVerdict (cause : Cause) : Prop := cause = .solving .redundant ∨ cause = .solving .inconsistent

theorem not_isVerdict {style : Style} (why : style.digits = .error cause ∨ IsRangeCause cause) :
    ¬ IsVerdict cause := by
  rcases why with digits | rfl | ⟨name, rfl⟩
  · obtain ⟨fault, rfl⟩ := Style.digits_error digits
    simp [IsVerdict]
  · simp [IsVerdict]
  · simp [IsVerdict]

theorem StopsShort.not_isVerdict (stops : solver.StopsShort settings equation cause) :
    ¬ IsVerdict cause :=
  Solver.not_isVerdict (stops.imp id And.left)

/-- Why a form that is to vanish has no pivot. -/
theorem pivotStep_error (positive : 0 < settings.cutoff) (solver : Solver) (style : Style)
    (error : pivotStep settings difference = .error cause) :
    (∃ form ∈ solver.eliminationForms settings difference, LeavesRange style form cause) ∨
      (difference.simplify settings.cutoff).isConstant = true ∧
        (cause = .solving .redundant ∨ cause = .solving .inconsistent) := by
  rcases except_bind_eq_error error with failed | ⟨form, simplification, later⟩
  · exact .inl ⟨_, List.mem_cons_self .., leavesRange_of_simplified_error failed⟩
  obtain rfl := simplified_eq_ok simplification
  by_cases constant : (difference.simplify settings.cutoff).isConstant = true
  · rw [if_pos constant] at later
    by_cases beyond : (difference.simplify settings.cutoff).constant.modulusOverflows = true
    · rw [if_pos beyond] at later
      cases later
      have outside : ¬ (difference.simplify settings.cutoff).IsInRange := by
        intro inRange
        rw [inRange.1.2] at beyond
        cases beyond
      have leaves : LeavesRange style (difference.simplify settings.cutoff) .modulusRange :=
        .inr ⟨.inl rfl, outside⟩
      exact .inl ⟨_, List.mem_cons_self .., leaves.of_simplify⟩
    · rw [if_neg beyond] at later
      split at later
      · cases later
        exact .inr ⟨constant, .inl rfl⟩
      · cases later
        exact .inr ⟨constant, .inr rfl⟩
  · rw [if_neg constant] at later
    split at later
    · rename_i none
      exact absurd none (Form.pivot?_simplify_ne_none positive constant)
    · rename_i unknown factor found
      rcases except_bind_eq_error later with failed | ⟨_, _, done⟩
      · exact .inl ⟨_, mem_eliminationForms_solvedFor found, leavesRange_of_simplified_error failed⟩
      · cases done

theorem pivotStep_leavesRange {style : Style}
    (ok : pivotStep settings difference = .ok (unknown, solution))
    (leaves : LeavesRange style solution cause) :
    ∃ form ∈ solver.eliminationForms settings difference, LeavesRange style form cause := by
  obtain ⟨factor, _, found, rfl⟩ := Form.pivotStep_eq_ok ok
  exact ⟨_, mem_eliminationForms_solvedFor found, leaves.of_simplify⟩

/-- Why an equation that has a pivot is refused. -/
theorem solve_error_of_nextPivot (reduced : before.state.IsReduced)
    (run : solve settings equation before = (.error fault, after))
    (next : before.state.nextPivot settings equation = .ok (unknown, solution)) :
    before.state.StopsShort settings equation fault.cause := by
  obtain ⟨left, right, created, sides, pivot⟩ := nextPivot_eq_ok next
  have new : unknown ∉ before.state.eliminated :=
    reduced.not_mem_of_reaches (mem_unknowns_sides sides
      (Form.mem_unknowns_sub (Form.pivotStep_unknown_mem pivot)))
  obtain ⟨_, ⟨early, _⟩ | ⟨found, form, count, middle, same, _, state, late⟩⟩ := solve_error run
  · rw [next] at early
    cases early
  rw [next] at same
  cases same
  rcases late with installing | ⟨installed, translating⟩
  · obtain ⟨_, pivotFault | ⟨entry, member, mentioned, why⟩⟩ := install_error installing
    · rw [state] at pivotFault
      obtain ⟨form, inside, leaves⟩ := pivotStep_leavesRange pivot pivotFault.leavesRange
      exact stopsShort_of_leavesRange (mem_met_of_elimination sides inside) leaves
    · rw [state] at member why
      rw [show place unknown solution _ = _ from place_of_not_mem new] at member
      rcases List.mem_append.mp member with known | last
      · obtain ⟨factor, _, found, rfl⟩ := Form.pivotStep_eq_ok pivot
        exact stopsShort_of_leavesRange
          (mem_met_of_elimination sides (mem_eliminationForms_substitute found known mentioned))
          why.leavesRange
      · rw [List.mem_singleton.mp last] at mentioned
        exact absurd rfl (Form.pivotStep_unknowns_subset pivot
          ((Form.mentions_iff _ _).mp mentioned)).2
  · have digits := translateAll_error translating
    obtain ⟨known, solved, same⟩ := installed_eq settings unknown solution middle.state
    rw [(install_ok installed).2.2, same, state] at digits
    exact .inl digits

theorem leavesRange_of_checkRecord_error {form : Form} (error : checkRecord settings unknown form = .error cause) :
    LeavesRange (solver.style settings) form cause := by
  by_cases recordable : IsRecordable form
  · rw [checkRecord_of_recordable recordable] at error
    cases error
  · rw [checkRecord_of_not_recordable recordable] at error
    cases error
    exact .inr ⟨.inr ⟨_, rfl⟩, mt isRecordable_of_isInRange recordable⟩

section Outcome

variable (positive : 0 < settings.cutoff)
  (sides : solver.sides settings equation = .ok (.form left, .form right, created))
include positive sides

/-- Why an equation between two forms has no pivot. -/
theorem nextPivot_error (error : solver.nextPivot settings equation = .error cause) :
    solver.StopsShort settings equation cause ∨
      solver.checkReport settings (.form left) (.form right) = .ok () ∧
        pivotStep settings (left.sub right) = .error cause ∧ IsVerdict cause := by
  rw [nextPivot, sides, except_ok_bind] at error
  rcases except_bind_eq_error error with failed | ⟨_, reported, error⟩
  · exact .inl (stopsShort_of_checkReport sides failed)
  rcases except_bind_eq_error error with failed | ⟨⟨unknown, solution⟩, pivot, error⟩
  · rcases pivotStep_error positive solver (solver.style settings) failed with
      ⟨form, member, leaves⟩ | ⟨_, verdict⟩
    · exact .inl (stopsShort_of_leavesRange (mem_met_of_elimination sides member) leaves)
    · exact .inr ⟨reported, failed, verdict⟩
  rcases except_bind_eq_error error with failed | ⟨_, _, done⟩
  · obtain ⟨form, member, leaves⟩ := pivotStep_leavesRange pivot (leavesRange_of_checkRecord_error failed)
    exact .inl (stopsShort_of_leavesRange (mem_met_of_elimination sides member) leaves)
  · cases done

end Outcome

end Solver

end EquationText
