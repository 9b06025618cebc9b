import EquationText.Proofs.Grammar.Writing
import EquationText.Proofs.Number.Tolerance
import EquationText.Proofs.Solver.Evaluation

/-! # Texts that state forms

A text states a form if it writes an expression whose value is the form
(`EquationText.Solver.States`). There is one rule for each way in which texts of numbers and forms are put
together.
-/

namespace EquationText

namespace Evaluation

variable {α β : Type} {start middle : Nat}

theorem run_bind_of_ok {first : Evaluation α} {next : α → Evaluation β} {a : α}
    (ok : first.run start = .ok (a, middle)) : (first >>= next).run start = (next a).run middle := by
  rw [StateT.run_bind, ok]
  rfl

end Evaluation

namespace Solver

/-- Whether a text writes an expression whose value is a form within the range of doubles, without an unnamed
unknown. -/
def States (settings : Settings) (solver : Solver) (category : Category) (levels : Nat) (cs : List Char)
    (form : Form) : Prop :=
  form.isFinite = true ∧ ∃ tree, Writes settings category levels cs tree ∧
    ∀ created, (solver.evaluate settings tree).run created = .ok (.form form, created)

variable {settings : Settings} {solver : Solver} {created : Nat}

/-- What a node comes to stands if it is in range. -/
theorem combineInRange_of_finite {node : Expr} {operands : List Operand} {form : Form} {arrangement : Arrangement}
    (combined : (solver.combine settings node operands).run created = .ok (⟨.form form, arrangement⟩, created))
    (finite : form.isFinite = true) :
    (solver.combineInRange settings node operands).run created = .ok (⟨.form form, arrangement⟩, created) := by
  rw [combineInRange, Evaluation.run_bind_of_ok combined, Value.checkRange, if_pos finite]
  rfl

namespace States

variable {category other : Category} {levels more : Nat} {cs left right word figures : List Char} {f g h : Form}
  {q : Rat}

/-- A text that writes a tree in another category states the same there. -/
theorem writing (states : States settings solver category levels cs f)
    (writes : ∀ {tree}, Writes settings category levels cs tree → Writes settings other more right tree) :
    States settings solver other more right f := by
  obtain ⟨finite, tree, written, value⟩ := states
  exact ⟨finite, tree, writes written, value⟩

theorem mono (states : States settings solver category levels cs f) (fewer : levels ≤ more) :
    States settings solver category more cs f := states.writing (·.mono fewer)

theorem signed (states : States settings solver .primary levels cs f) :
    States settings solver .signed (levels + 1) cs f := states.writing (·.postfixed.power.signed)

theorem term (states : States settings solver .signed levels cs f) : States settings solver .term levels cs f :=
  states.writing (·.term)

theorem expression (states : States settings solver .term levels cs f) :
    States settings solver .expression levels cs f := states.writing (·.expression)

variable (usual : settings.HasUsualMarks)
include usual

theorem parenthesised (states : States settings solver .expression levels cs f) :
    States settings solver .primary levels ('(' :: (cs ++ [')'])) f := states.writing (·.parenthesised usual)

theorem named (isName : isName word = true) (notAnonymous : String.ofList word ≠ settings.anonymousWord)
    (known : solver.formOf (.named (String.ofList word)) = f) (finite : f.isFinite = true) :
    States settings solver .primary 0 word f := by
  refine ⟨finite, _, .named usual isName notAnonymous, fun created => ?_⟩
  have combined : (solver.combine settings (.named (String.ofList word)) []).run created =
      .ok (⟨.form f, .factored false⟩, created) := by
    rw [← known]
    rfl
  exact run_evaluate_of_reduce (.named _) (combineInRange_of_finite combined finite)

/-- A numeral states the shortest decimal of its double. -/
theorem number (taken : takeNumeral figures = some (figures, []))
    (shortest : (numeralValue figures).shortestValue? = some q) (finite : (Scalar.exact q).isFinite = true) :
    States settings solver .primary 0 figures (.ofRat q) := by
  have inRange : (Form.ofRat q).isFinite = true := by
    simp [Form.ofRat, Form.ofNumber, Form.isFinite, Number.ofRat, Number.ofScalar, Number.isFinite, finite,
      Scalar.isFinite_zero]
  refine ⟨inRange, _, .number usual taken, fun created => ?_⟩
  have combined : (solver.combine settings (.number (numeralValue figures)) []).run created =
      .ok (.ofValue (.form (.ofRat q)), created) := by
    change (liftM ((literal _).map Operand.ofValue) : Evaluation Operand).run created = _
    rw [literal, shortest]
    rfl
  exact run_evaluate_of_reduce (.number _) (combineInRange_of_finite combined inRange)

theorem minus (states : States settings solver .signed levels cs f) (finite : f.neg.isFinite = true) :
    States settings solver .signed (levels + 1) ('-' :: cs) f.neg := by
  obtain ⟨_, tree, writes, value⟩ := states
  refine ⟨finite, _, writes.minus usual, fun created => ?_⟩
  obtain ⟨arrangement, run⟩ := reduce_of_evaluate (value created)
  have negated : (solver.combine settings tree.negation [⟨.form f, arrangement⟩]).run created =
      .ok (⟨.form f.neg, arrangement.neg⟩, created) := rfl
  exact run_evaluate_of_reduce tree.negation
    ((Evaluation.run_bind_of_ok run).trans (combineInRange_of_finite negated finite))

omit usual in
/-- The rule for operations of two operands. -/
theorem operation {first second : Category} {operator : Operator}
    (statesLeft : States settings solver first levels left f)
    (statesRight : States settings solver second levels right g)
    (writes : ∀ {a b}, Writes settings first levels left a → Writes settings second levels right b →
      Writes settings category levels cs (.binary operator a b))
    (operated : operate settings.cutoff operator (.form f) (.form g) = .ok (.form h)) (finite : h.isFinite = true) :
    States settings solver category levels cs h := by
  obtain ⟨_, a, writesLeft, valueLeft⟩ := statesLeft
  obtain ⟨_, b, writesRight, valueRight⟩ := statesRight
  refine ⟨finite, _, writes writesLeft writesRight, fun created => ?_⟩
  obtain ⟨first, runLeft⟩ := reduce_of_evaluate (valueLeft created)
  obtain ⟨second, runRight⟩ := reduce_of_evaluate (valueRight created)
  have combined : (solver.combine settings (.binary operator a b) [⟨.form f, first⟩, ⟨.form g, second⟩]).run created =
      .ok (.ofValue (.form h), created) := by
    change (liftM ((operate settings.cutoff operator (.form f) (.form g)).map Operand.ofValue) :
      Evaluation Operand).run created = _
    rw [operated]
    rfl
  exact run_evaluate_of_reduce (.binary operator a b) ((Evaluation.run_bind_of_ok runLeft).trans
    ((Evaluation.run_bind_of_ok runRight).trans (combineInRange_of_finite combined finite)))

theorem sum (statesLeft : States settings solver .expression levels left f)
    (statesRight : States settings solver .term levels right g) (finite : (f.add g).isFinite = true) :
    States settings solver .expression levels (left ++ ' ' :: '+' :: ' ' :: right) (f.add g) :=
  operation statesLeft statesRight (fun a b => a.infixed usual rfl b Derives.sum) rfl finite

theorem difference (statesLeft : States settings solver .expression levels left f)
    (statesRight : States settings solver .term levels right g) (finite : (f.sub g).isFinite = true) :
    States settings solver .expression levels (left ++ ' ' :: '-' :: ' ' :: right) (f.sub g) :=
  operation statesLeft statesRight (fun a b => a.infixed usual rfl b Derives.difference) rfl finite

theorem times (statesLeft : States settings solver .term levels left f)
    (statesRight : States settings solver .signed levels right g) (constant : f.isConstant = true)
    (finite : (g.scale f.constant).isFinite = true) :
    States settings solver .term levels (left ++ '*' :: right) (g.scale f.constant) :=
  operation statesLeft statesRight (fun a b => a.times usual b) (by simp [operate, Value.mul, constant]) finite

end States

end Solver

end EquationText
