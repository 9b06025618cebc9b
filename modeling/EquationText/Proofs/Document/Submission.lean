import EquationText.Proofs.Document
import EquationText.Proofs.Document.Run
import EquationText.Proofs.Document.Statements

/-! # Which equations a document submits

The equations that a document submits come from complete statements, with one exception: an equation that
other tokens follow in its statement is submitted before they are refused
(`EquationText.submitted_equations`). A fault in reading has no effect on the engine by itself.
-/

namespace EquationText

variable {levels : Nat} {document remaining : List Token} {program : List Instruction}
  {done later steps earlier : List Step} {step first second : Step}

theorem AreComplete.mono (complete : AreComplete levels document steps) (fewer : earlier ⊆ steps) :
    AreComplete levels document earlier :=
  fun line program member => complete line program (fewer member)

/-- Where a step of a list stands that ends with two given ones. -/
theorem append_cons_eq_pair (same : done ++ step :: later = earlier ++ [first, second]) :
    done ++ [step] <+: earlier ∨ done = earlier ∧ step = first ∨
      done = earlier ++ [first] ∧ step = second := by
  have pair : earlier ++ [first, second] = (earlier ++ [first]) ++ [second] := by simp
  rcases later.eq_nil_or_concat' with rfl | ⟨most, _, rfl⟩
  · rw [pair] at same
    obtain ⟨front, back⟩ := List.append_inj' same rfl
    exact .inr (.inr ⟨front, List.singleton_inj.mp back⟩)
  · rw [pair, ← List.cons_append, ← List.append_assoc] at same
    obtain ⟨front, _⟩ := List.append_inj' same rfl
    rcases most.eq_nil_or_concat' with rfl | ⟨between, _, rfl⟩
    · obtain ⟨front, back⟩ := List.append_inj' front rfl
      exact .inr (.inl ⟨front, List.singleton_inj.mp back⟩)
    · rw [← List.cons_append, ← List.append_assoc] at front
      obtain ⟨front, _⟩ := List.append_inj' front rfl
      exact .inl ⟨between, by rw [← front]; simp⟩

/-- The equations that a document submits. Those among its steps come from complete statements, or all but
the last do, which is cut off where the document stops. So when the document is carried out, all of
them come from complete statements. When it ends with a fault, then in one of its steps; if that step
stands for a fault in reading, it leaves the engine as it is; and the equations submitted come from
complete statements, except that the last of them may be cut off, which is either the step that failed
or was carried out right before the fault in reading that cuts it off. -/
theorem submitted_equations {σ ν : Type} (engine : Engine σ ν) (settings : Settings) (text : String)
    (before : Traced (Session σ ν)) :
    let context : Context := ⟨settings, (scan settings text).ending⟩
    let levels := settings.nestingLevels
    let document := (scan settings text).tokens
    let steps := documentSteps settings text
    (∀ after, engine.performAll steps before = (.ok (), after) → AreComplete levels document steps) ∧
    ∀ fault after, engine.performAll steps before = (.error fault, after) →
      ∃ done step later middle, steps = done ++ step :: later ∧
        engine.performAll done before = (.ok (), middle) ∧
        engine.perform step middle = (.error fault, after) ∧
        (step.isRefusal = true → after.state.engine = middle.state.engine) ∧
        (AreComplete levels document (done ++ [step]) ∨
          ∃ earlier line program remaining, AreComplete levels document earlier ∧
            IsCutOff levels document program remaining ∧
            (done = earlier ∧ step = .equation line program ∨
              done = earlier ++ [.equation line program] ∧
                step = .halt ((Cause.reading (.unexpected (context.shown remaining))).onLine
                  (context.lineOf remaining)))) := by
  intro context levels document steps
  have stand : context.StepsStand levels document steps := documentSteps_stand settings text
  constructor
  · intro after run
    rcases stand with complete | ⟨earlier, line, program, remaining, _, _, _, whole⟩
    · exact complete
    · rw [whole, Engine.performAll_append] at run
      obtain ⟨_, middle, _, last⟩ := Action.run_bind_eq_ok run
      obtain ⟨_, submitted, _, halted⟩ := Action.run_bind_eq_ok last
      cases halted
  · intro fault after run
    obtain ⟨done, step, later, middle, whole, ok, failed⟩ := Engine.performAll_error run
    refine ⟨done, step, later, middle, whole, ok, failed, fun refusal => ?_, ?_⟩
    · have same := Engine.perform_refusal_engine engine refusal middle
      rwa [failed] at same
    · rcases stand with complete | ⟨earlier, line, program, remaining, complete, cutOff, _, pair⟩
      · refine .inl (complete.mono ?_)
        rw [whole]
        simp
      · rw [whole] at pair
        rcases append_cons_eq_pair pair with before | last | halted
        · exact .inl (complete.mono before.subset)
        · exact .inr ⟨earlier, line, program, remaining, complete, cutOff, .inl last⟩
        · exact .inr ⟨earlier, line, program, remaining, complete, cutOff, .inr halted⟩

/-- A document with a statement that starts with an equation and goes on with a parenthesis. -/
def strayParenthesis : String := "\x7b\x7b x = 1 ) \x7d\x7d"

/-- The equation at the start of the statement. -/
def beforeParenthesis : List Token :=
  [⟨.ident "x", 1⟩, ⟨.operator '=', 1⟩, ⟨.number (.finite 1), 1⟩]

/-- The session after the equation at the start of the statement was carried out. -/
def afterParenthesis : Traced SolverSession :=
  ((linearEngine {}).performAll (documentSteps {} strayParenthesis) freshSession).2

theorem scan_strayParenthesis :
    (scan {} strayParenthesis).tokens =
      ⟨.blockOpen, 1⟩ :: (beforeParenthesis ++ [⟨.mark ')', 1⟩] ++ [⟨.blockClose, 1⟩]) := by
  decide +kernel

theorem strayParenthesis_refused :
    (linearEngine {}).performAll (documentSteps {} strayParenthesis) freshSession =
      (.error ((Cause.reading (.unexpected ")")).onLine 1), afterParenthesis) := by
  have outcome : ((linearEngine {}).performAll (documentSteps {} strayParenthesis) freshSession).1 =
      .error ((Cause.reading (.unexpected ")")).onLine 1) := by
    decide +kernel
  exact Prod.ext outcome rfl

theorem derives_beforeParenthesis : DerivesEquation 1 beforeParenthesis
    (.binary .equation (.named "x") (.number (.finite 1))) :=
  @DerivesEquation.intro _ [⟨.ident "x", 1⟩] [⟨.number (.finite 1), 1⟩] _ _ 1
    (.ofTerm (.ofSigned (.ofPower (.ofPostfixed (.ofPrimary .named)))))
    (.ofTerm (.ofSigned (.ofPower (.ofPostfixed (.ofPrimary .number)))))

/-- The fault at the parenthesis has no effect on the engine by itself, and the equations that were
carried out come from complete statements or are cut off by it. -/
theorem submitted_equations_strayParenthesis :
    ∃ done step later middle, documentSteps {} strayParenthesis = done ++ step :: later ∧
      (linearEngine {}).performAll done freshSession = (.ok (), middle) ∧
      (step.isRefusal = true → afterParenthesis.state.engine = middle.state.engine) := by
  obtain ⟨done, step, later, middle, whole, ok, _, same, _⟩ :=
    (submitted_equations (linearEngine {}) {} strayParenthesis freshSession).2 _ _
      strayParenthesis_refused
  exact ⟨done, step, later, middle, whole, ok, same⟩

/-- The only statement of the document is no equation at any nesting and is refused at its parenthesis,
but the name in it has been solved. -/
theorem refused_statement_solves :
    IsStatement (scan {} strayParenthesis).tokens (beforeParenthesis ++ [⟨.mark ')', 1⟩])
        [⟨.blockClose, 1⟩] ∧
      (∀ levels tree, ¬ DerivesEquation levels (beforeParenthesis ++ [⟨.mark ')', 1⟩]) tree) ∧
      ((linearEngine {}).performAll (documentSteps {} strayParenthesis) freshSession).1 =
        .error ((Cause.reading (.unexpected ")")).onLine 1) ∧
      freshSession.state.engine.solved = [] ∧
      afterParenthesis.state.engine.solved.map Prod.fst = ["x"] := by
  refine ⟨⟨⟨[], ⟨.blockOpen, 1⟩, scan_strayParenthesis, .inl rfl⟩, by decide, .inr rfl⟩, ?_,
    congrArg Prod.fst strayParenthesis_refused, rfl, by decide +kernel⟩
  intro levels tree
  refine derives_beforeParenthesis.not_derives_append ⟨?_, ?_⟩ (List.cons_ne_nil _ _)
  · rintro next head (continued | ⟨called, _⟩)
    · cases head
      simp [Category.continuations] at continued
    · cases head
      cases called
  · rintro line tail same
    cases same

end EquationText
