import EquationText.Proofs.Expr.Program
import EquationText.Proofs.Session.Equation
import EquationText.Proofs.Solver.Rereading
import EquationText.Proofs.Solver.Translation

/-! # Described forms read back

The texts of forms and numbers and the answers to references are expressions. Between the marks of a block they are
scanned and read, a fresh solver has room for building them, and their values are the forms of the numbers that
were printed (`EquationText.described_form_reads`), as long as no printed number is beyond the range of doubles when
it is read.
-/

namespace EquationText

/-- Whether a text is an expression that has a form as its value in a fresh solver, which has room for building it. -/
def IsTextOf (settings : Settings) (text : String) (form : Form) : Prop :=
  ∃ tree, IsReadAs settings 3 text tree ∧ ∀ verbose precision,
    (∀ log, ∃ after, (linearEngine settings).build tree.program
        ⟨.start (.start settings verbose none precision), log⟩ = (.ok (), after) ∧ after.state.result? = some tree) ∧
      ∀ created, ((Solver.start settings verbose none precision).evaluate settings tree).run created =
        .ok (.form form, created)

namespace Solver

section Fresh

variable {settings : Settings} {verbose : Bool} {depth precision : Option Int}

theorem formOf_start_imaginaryName :
    (start settings verbose depth precision).formOf (.named imaginaryName) = .ofNumber .imaginaryUnit := rfl

theorem formOf_start {name : String} (other : name ≠ imaginaryName) :
    (start settings verbose depth precision).formOf (.named name) = .ofUnknown (.named name) := by
  have different : Unknown.named imaginaryName ≠ .named name := fun same => other (Unknown.named.inj same).symm
  rw [formOf, start, valueOf?, if_neg different]
  rfl

/-- A fresh solver has room for building an expression of a few levels. -/
theorem exists_build {levels : Nat} {word : List Token} {tree : Expr} (derives : Derives .expression levels word tree)
    (room : 4 * (levels : Int) ≤ settings.maxStackDepth) (log : Array Entry) :
    ∃ after, (linearEngine settings).build tree.program ⟨.start (.start settings verbose none precision), log⟩ =
      (.ok (), after) ∧ after.state.result? = some tree := by
  have asked := derives.room_le
  simp only [Category.reserve] at asked
  have enough : (start settings verbose none precision).hasRoom (tree.room : Nat) = true :=
    decide_eq_true (show (tree.room : Int) ≤ settings.maxStackDepth by omega)
  exact ⟨_, Engine.build_of_room (linearEngine_buildsTrees settings) ⟨rfl, rfl⟩
    (Expr.isWellFormed_of_isExpression derives.isExpression) log enough, rfl⟩

/-- A text that states a form in every solver that knows the imaginary unit only is a text of it. -/
theorem exists_isTextOf {written : Except Cause String} {form : Form} (usual : settings.HasUsualMarks)
    (room : 12 ≤ settings.maxStackDepth)
    (states : ∀ solver : Solver, solver.formOf (.named imaginaryName) = .ofNumber .imaginaryUnit →
      (∀ name, name ≠ imaginaryName → solver.formOf (.named name) = .ofUnknown (.named name)) →
      ∃ text, written = .ok text ∧ States settings solver .expression 3 text.toList form) :
    ∃ text, written = .ok text ∧ IsTextOf settings text form := by
  have fresh : ∀ verbose precision, ∃ text, written = .ok text ∧
      States settings (start settings verbose none precision) .expression 3 text.toList form :=
    fun _ _ => states _ formOf_start_imaginaryName fun _ => formOf_start
  obtain ⟨text, ok, _, tree, writes, _⟩ := fresh false none
  have read := writes.isReadAs usual
  refine ⟨text, ok, tree, read, fun verbose precision => ⟨fun log => ?_, fun created => ?_⟩⟩
  · obtain ⟨_, _, derives, _⟩ := read
    exact exists_build derives room log
  · obtain ⟨same, again, _, treeSame, writesSame, value⟩ := fresh verbose precision
    cases ok.symm.trans again
    cases read.unique (writesSame.isReadAs usual)
    exact value created

end Fresh

/-- The part of a value that a reference selects, as a number. -/
def Selection.part : Selection → Number → Number
  | whole _, a => a
  | real _, a => .ofScalar a.re
  | imaginary _, a => .ofScalar a.im

/-- The answer to a reference is the text of the part that it selects. -/
theorem translate_eq_number {settings : Settings} {solver : Solver} {reference : String} {value : Number}
    (positive : 0 < settings.cutoff) (found : valueOf? (select reference).name solver.solved = some value) :
    solver.translate settings reference =
      ((solver.style settings).number ((select reference).part value)).map some := by
  have real : ∀ a : Scalar, (solver.style settings).number (.ofScalar a) =
      (solver.style settings).double a.toDouble := by
    intro a
    have flat : Double.isBelow (solver.style settings).cutoff (Scalar.zero.toDouble) = true := by
      rw [Scalar.toDouble_of_value_eq_zero rfl]
      exact decide_eq_true (show (0 : Rat).abs < settings.cutoff from positive)
    exact if_pos flat
  unfold translate
  generalize select reference = selection at found ⊢
  cases selection with
  | whole name =>
      rw [Selection.name] at found
      simp only [found]
      rfl
  | real name =>
      rw [Selection.name] at found
      simp only [found, Selection.part, real]
  | imaginary name =>
      rw [Selection.name] at found
      simp only [found, Selection.part, real]

end Solver

section Described

variable {settings : Settings} {style : Style} (usual : settings.HasUsualMarks)
  (other : settings.anonymousWord ≠ Solver.imaginaryName) (room : 12 ≤ settings.maxStackDepth)
  (printable : style.IsPrintable) (positive : 0 < style.cutoff) (small : style.cutoff ≤ 1)
include usual other room printable positive small

/-- The text of a form reads back as the form of the printed numbers. -/
theorem exists_isTextOf_form {form : Form} (plain : form.IsPlain settings) (reads : style.Reads form) :
    ∃ text, style.form settings.anonymousWord form = .ok text ∧ IsTextOf settings text (style.printedForm form) :=
  Solver.exists_isTextOf usual room fun _ unit free =>
    Solver.states_form usual printable positive unit other small plain free reads

/-- The text of a number reads back as the printed number. -/
theorem exists_isTextOf_number {a : Number} (finite : a.isFinite = true) (readable : style.IsReadable a) :
    ∃ text, style.number a = .ok text ∧ IsTextOf settings text (.ofNumber (style.printed a)) :=
  Solver.exists_isTextOf usual room fun _ unit _ =>
    Solver.states_number_expression usual printable positive unit other small finite readable

end Described

/-- The texts of forms and of numbers and the answers to references read back. With the default settings and each
precision that documents can set, the text of a form is an expression whose value in a fresh solver is the form of
the printed numbers, if all these are in the range of doubles when they are read; so are the texts of numbers and
the answers for solved names and for the parts of their values. A printed number stands for a rational that has the
double of the number as the nearest double. -/
theorem described_form_reads {style : Style} (standard : style.cutoff = ({} : Settings).cutoff)
    (usual : Solver.IsUsualPrecision style.precision) :
    (∀ text, IsReadable text → (Double.ofRat (printedValue text)).value? = (printedDouble text).value?) ∧
    (∀ form : Form, form.IsPlain {} → style.Reads form →
      ∃ text, style.form ({} : Settings).anonymousWord form = .ok text ∧ IsTextOf {} text (style.printedForm form)) ∧
    (∀ a : Number, a.isFinite = true → style.IsReadable a →
      ∃ text, style.number a = .ok text ∧ IsTextOf {} text (.ofNumber (style.printed a))) ∧
    (∀ (solver : Solver) (reference : String) (value : Number), solver.style {} = style →
      valueOf? (Solver.select reference).name solver.solved = some value →
      ((Solver.select reference).part value).isFinite = true →
      style.IsReadable ((Solver.select reference).part value) →
      ∃ text, solver.translate {} reference = .ok (some text) ∧
        IsTextOf {} text (.ofNumber (style.printed ((Solver.select reference).part value)))) := by
  have marks := Settings.hasUsualMarks_standard
  have other : ({} : Settings).anonymousWord ≠ Solver.imaginaryName := by decide
  have room : 12 ≤ ({} : Settings).maxStackDepth := by decide
  have printable := Solver.isPrintable_of_isUsualPrecision usual
  have cutoffPositive : 0 < ({} : Settings).cutoff := by decide +kernel
  have positive : 0 < style.cutoff := by rwa [standard]
  have small : style.cutoff ≤ 1 := by
    rw [standard]
    decide +kernel
  have number : ∀ a : Number, a.isFinite = true → style.IsReadable a →
      ∃ text, style.number a = .ok text ∧ IsTextOf {} text (.ofNumber (style.printed a)) :=
    fun _ => exists_isTextOf_number marks other room printable positive small
  refine ⟨fun _ => value?_ofRat_printedValue,
    fun _ => exists_isTextOf_form marks other room printable positive small, number, ?_⟩
  intro solver reference value same found finite readable
  obtain ⟨text, ok, isText⟩ := number _ finite readable
  refine ⟨text, ?_, isText⟩
  rw [Solver.translate_eq_number cutoffPositive found, same, ok]
  rfl

/-- The form of `1/2 - i + (-2 + 3*i)*x + y`. -/
def mixedForm : Form := ⟨.ofParts (1 / 2) (-1), [(.named "x", .ofParts (-2) 3), (.named "y", .one)]⟩

theorem isPlain_mixedForm : mixedForm.IsPlain {} where
  constant := by decide +kernel
  coefficients := by decide +kernel
  names := by
    simp only [mixedForm, List.forall_mem_cons, List.not_mem_nil, false_implies, implies_true, and_true]
    exact ⟨⟨"x", rfl, by decide, by decide, by decide⟩, ⟨"y", rfl, by decide, by decide, by decide⟩⟩
  ordered := by decide +kernel

/-- A solver that has solved `x = -2 + 3*i`. -/
def solvedSolver : Solver := { Solver.start {} false none none with solved := [("x", .ofParts (-2) 3)] }

theorem reads_mixedForm : (solvedSolver.style {}).Reads mixedForm where
  constant := by decide +kernel
  terms := by
    simp only [mixedForm, List.forall_mem_cons, List.not_mem_nil, false_implies, implies_true, and_true]
    exact ⟨fun _ _ => by decide +kernel, fun _ _ => by decide +kernel⟩

/-- The form `1/2 - i + (-2 + 3*i)*x + y` and the imaginary part of `-2 + 3*i` read back. -/
theorem described_form_reads_mixed :
    IsTextOf {} "0.5 - i + (-2 + 3*i)*x + y" mixedForm ∧ IsTextOf {} "-2 + 3*i" (.ofNumber (.ofParts (-2) 3)) ∧
      solvedSolver.translate {} "x#i" = .ok (some "3") ∧ IsTextOf {} "3" (.ofRat 3) := by
  have standard : (solvedSolver.style {}).cutoff = ({} : Settings).cutoff := by rw [Solver.style]
  obtain ⟨_, forms, numbers, answers⟩ := described_form_reads standard ⟨by decide, by decide⟩
  obtain ⟨text, written, reads⟩ := forms mixedForm isPlain_mixedForm reads_mixedForm
  obtain ⟨number, numberWritten, numberReads⟩ := numbers (.ofParts (-2) 3) (by decide +kernel) (by decide +kernel)
  obtain ⟨part, answered, partReads⟩ := answers solvedSolver "x#i" (.ofParts (-2) 3) rfl (by decide +kernel)
    (by decide +kernel) (by decide +kernel)
  have formText : (solvedSolver.style {}).form ({} : Settings).anonymousWord mixedForm =
      .ok "0.5 - i + (-2 + 3*i)*x + y" := by decide +kernel
  have numberText : (solvedSolver.style {}).number (.ofParts (-2) 3) = .ok "-2 + 3*i" := by decide +kernel
  have partText : solvedSolver.translate {} "x#i" = .ok (some "3") := by decide +kernel
  cases formText.symm.trans written
  cases numberText.symm.trans numberWritten
  cases partText.symm.trans answered
  have same : (solvedSolver.style {}).printedForm mixedForm = mixedForm := by decide +kernel
  have sameNumber : (solvedSolver.style {}).printed (.ofParts (-2) 3) = .ofParts (-2) 3 := by decide +kernel
  have samePart : (solvedSolver.style {}).printed ((Solver.select "x#i").part (.ofParts (-2) 3)) = .ofRat 3 := by
    decide +kernel
  rw [same] at reads
  rw [sameNumber] at numberReads
  rw [samePart] at partReads
  exact ⟨reads, numberReads, partText, partReads⟩

/-- With one digit the number `1.7e308` is printed as a number that is beyond the range of doubles when it is read,
so its text is an expression without a value. -/
theorem rounded_number_out_of_range :
    (Form.ofRat (17 * 10 ^ 307)).IsPlain {} ∧
      (⟨({} : Settings).cutoff, 1⟩ : Style).form ({} : Settings).anonymousWord (.ofRat (17 * 10 ^ 307)) =
        .ok "2e+308" ∧
      IsReadAs {} 1 "2e+308" (.number (.infinite false)) ∧
      (∀ verbose precision created,
        ((Solver.start {} verbose none precision).evaluate {} (.number (.infinite false))).run created =
          .error (.solving .numberRange)) ∧
      ∀ form, ¬ IsTextOf {} "2e+308" form := by
  have taken : takeNumeral "2e+308".toList = some ("2e+308".toList, []) := by decide
  have beyond : numeralValue "2e+308".toList = .infinite false := by decide +kernel
  have writes : Writes {} .primary 0 _ _ := .number Settings.hasUsualMarks_standard taken
  rw [beyond] at writes
  have read : IsReadAs {} 1 "2e+308" _ :=
    writes.postfixed.power.signed.term.expression.isReadAs Settings.hasUsualMarks_standard
  have error : ∀ verbose precision created,
      ((Solver.start {} verbose none precision).evaluate {} (.number (.infinite false))).run created =
        .error (.solving .numberRange) := by
    intro verbose precision created
    rw [Solver.evaluate_eq_reduce]
    rfl
  refine ⟨⟨by decide +kernel, by simp [Form.ofRat, Form.ofNumber], by simp [Form.ofRat, Form.ofNumber], .nil⟩,
    by decide +kernel, read, error, ?_⟩
  rintro form ⟨tree, readTree, valued⟩
  cases read.unique readTree
  have value := (valued false none).2 0
  rw [error] at value
  cases value

end EquationText
