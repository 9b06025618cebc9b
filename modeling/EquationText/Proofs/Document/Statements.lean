import EquationText.Document.Process
import EquationText.Proofs.Grammar.Names
import EquationText.Proofs.Grammar.Statement

/-! # The statements of a document and its steps

A statement of a document takes the tokens from the start of a block or the end of the statement before it
to its own end. Each equation step of a document comes from a statement whose tokens are derived as an
equation, except that the last one may come from a statement with more tokens than its equation has; then
the document stops at the first of these (`EquationText.documentSteps_stand`).
-/

namespace EquationText

/-- Whether some tokens of a document are those of a statement, with the tokens `rest` after it. -/
structure IsStatement (document statement rest : List Token) : Prop where
  begins : ∃ earlier opener, document = earlier ++ opener :: (statement ++ rest) ∧
    (opener.lexeme = .blockOpen ∨ opener.lexeme = .statementEnd)
  whole : ∀ token ∈ statement, token.lexeme.endsStatement = false
  ends : rest = [] ∨ Context.endsStatement rest = true

/-- Whether a program is that of an equation which takes up all of a statement. -/
def IsComplete (levels : Nat) (document : List Token) (program : List Instruction) : Prop :=
  ∃ statement rest tree, IsStatement document statement rest ∧ rest ≠ [] ∧
    DerivesEquation levels statement tree ∧ program = tree.program

/-- Whether a program is that of an equation at the start of a statement that is not an equation as a
whole, or is not ended. -/
def IsCutOff (levels : Nat) (document : List Token) (program : List Instruction)
    (remaining : List Token) : Prop :=
  ∃ word extra rest tree, IsStatement document (word ++ extra) rest ∧ remaining = extra ++ rest ∧
    DerivesEquation levels word tree ∧ program = tree.program ∧ (extra = [] → rest = []) ∧
    (extra ≠ [] → ∀ deeper other, ¬ DerivesEquation deeper (word ++ extra) other)

/-- Whether the equations among some steps of a document come from complete statements. -/
def AreComplete (levels : Nat) (document : List Token) (steps : List Step) : Prop :=
  ∀ line program, .equation line program ∈ steps → IsComplete levels document program

namespace AreComplete

variable {levels : Nat} {document : List Token} {step : Step} {steps : List Step}

theorem nil : AreComplete levels document [] := fun _ _ member => (List.not_mem_nil member).elim

theorem cons (first : ∀ line program, step = .equation line program → IsComplete levels document program)
    (others : AreComplete levels document steps) : AreComplete levels document (step :: steps) := by
  intro line program member
  rcases List.mem_cons.mp member with same | later
  · exact first line program same.symm
  · exact others line program later

theorem reverse (complete : AreComplete levels document steps) :
    AreComplete levels document steps.reverse := fun line program member =>
  complete line program (List.mem_reverse.mp member)

end AreComplete

namespace Context

variable {context : Context} {levels : Nat} {document tokens rest : List Token} {found : List Step}

/-- Some tokens up to the first that ends a statement. -/
theorem exists_statement_end (tokens : List Token) :
    ∃ extra rest, tokens = extra ++ rest ∧ (∀ token ∈ extra, token.lexeme.endsStatement = false) ∧
      (rest = [] ∨ endsStatement rest = true) := by
  induction tokens with
  | nil => exact ⟨[], [], rfl, List.forall_mem_nil _, .inl rfl⟩
  | cons token tokens ih =>
      cases ends : token.lexeme.endsStatement with
      | true =>
          exact ⟨[], token :: tokens, rfl, List.forall_mem_nil _,
            .inr ((endsStatement_cons token tokens).trans ends)⟩
      | false =>
          obtain ⟨extra, rest, rfl, whole, last⟩ := ih
          exact ⟨token :: extra, rest, rfl, List.forall_mem_cons.mpr ⟨ends, whole⟩, last⟩

/-! ## Steps -/

/-- Whether a statement may start where some tokens were passed: after the start of a block or the end of
a statement. -/
def StartsStatement (passed : List Token) : Prop :=
  ∃ earlier opener, passed = earlier ++ [opener] ∧
    (opener.lexeme = .blockOpen ∨ opener.lexeme = .statementEnd)

section Statement

variable {passed remaining : List Token} {line : Nat} {program : List Instruction}

/-- An equation that its statement ends after is complete, and any other one is cut off. -/
theorem statement_isComplete_or_isCutOff (starts : StartsStatement passed)
    (read : context.statement (context.production levels .expression) tokens =
      (.equation line program, some remaining)) :
    (endsStatement remaining = true → IsComplete levels (passed ++ tokens) program) ∧
      (endsStatement remaining = false → IsCutOff levels (passed ++ tokens) program remaining) := by
  obtain ⟨earlier, opener, rfl, opens⟩ := starts
  obtain ⟨word, tree, _, rfl, same, rfl, _, derives, ends⟩ := exists_derives_of_statement read
  cases same
  have inWord : ∀ token ∈ word, token.lexeme.endsStatement = false := fun token member =>
    Lexeme.endsStatement_of_isOfExpression (derives.isOfExpression token member)
  constructor
  · intro ended
    refine ⟨word, remaining, tree, ⟨⟨earlier, opener, by simp, opens⟩, inWord, .inr ended⟩, ?_, derives,
      rfl⟩
    rintro rfl
    cases ended
  · intro open'
    obtain ⟨extra, rest, rfl, inExtra, last⟩ := exists_statement_end remaining
    refine ⟨word, extra, rest, tree, ⟨⟨earlier, opener, by simp, opens⟩,
      List.forall_mem_append.mpr ⟨inWord, inExtra⟩, last⟩, rfl, derives, rfl, ?_, fun more => ?_⟩
    · rintro rfl
      rcases last with none | ended
      · exact none
      · rw [List.nil_append, ended] at open'
        cases open'
    · exact fun deeper other => derives.not_derives_append (ends.of_append more) more

end Statement

/-- Every equation among the steps of a document comes from a complete statement, except that the last
one may be cut off by the token at which the document stops. -/
def StepsStand (context : Context) (levels : Nat) (document : List Token) (steps : List Step) : Prop :=
  AreComplete levels document steps ∨
    ∃ earlier line program remaining, AreComplete levels document earlier ∧
      IsCutOff levels document program remaining ∧ endsStatement remaining = false ∧
      steps = earlier ++ [.equation line program,
        .halt ((Cause.reading (.unexpected (context.shown remaining))).onLine
          (context.lineOf remaining))]

/-- The steps found before a fault outside of statements. -/
theorem StepsStand.of_complete (steps : List Step) (complete : AreComplete levels document found)
    (others : ∀ step ∈ steps, ∀ line program, step ≠ .equation line program) :
    context.StepsStand levels document (steps ++ found).reverse := by
  refine .inl (AreComplete.reverse fun line program member => ?_)
  rcases List.mem_append.mp member with new | old
  · exact (others _ new line program rfl).elim
  · exact complete line program old

/-- What a statement leaves are the last of its tokens. -/
theorem suffix_of_statement {step : Step} {remaining : List Token}
    (read : context.statement (context.production levels .expression) tokens =
      (step, some remaining)) : remaining <:+ tokens := by
  unfold statement at read
  split at read
  · split at read
    · rename_i advanced
      cases read
      rw [context.advance_outcome_ok advanced]
      exact List.suffix_cons ..
    · cases read
  · simp only at read
    split at read
    · rename_i ok
      cases read
      obtain ⟨_, _, word, _, _, rfl, _, _⟩ := (equation_builds context levels [] tokens).outcome _ ok
      exact List.suffix_append ..
    · cases read

theorem not_endsStatement (notClose : ∀ line rest, tokens = ⟨.blockClose, line⟩ :: rest → False)
    (notEnd : ∀ line rest, tokens = ⟨.statementEnd, line⟩ :: rest → False) : ¬ endsStatement tokens = true := by
  intro ended
  unfold endsStatement at ended
  split at ended
  · exact notEnd _ _ rfl
  · exact notClose _ _ rfl
  · cases ended

section Found

variable {passed remaining : List Token} {step : Step} (complete : AreComplete levels document found)
include complete

/-- A statement that is refused leads to no equation. -/
theorem StepsStand.of_refused
    (read : context.statement (context.production levels .expression) tokens = (step, none)) :
    context.StepsStand levels document (step :: found).reverse := by
  refine .of_complete [step] complete ?_
  simp only [List.mem_singleton]
  rintro _ rfl line program rfl
  obtain ⟨_, _, _, _, same, _⟩ := exists_derives_of_statement read
  cases same

variable (whole : document = passed ++ tokens) (start : StartsStatement passed)
  (read : context.statement (context.production levels .expression) tokens = (step, some remaining))
include whole start read

/-- A statement that is ended leads to no equation or to that of a complete one. -/
theorem areComplete_statement (ended : endsStatement remaining = true) :
    AreComplete levels document (step :: found) := by
  refine .cons ?_ complete
  rintro line program rfl
  rw [whole]
  exact (statement_isComplete_or_isCutOff start read).1 ended

/-- After a statement that goes on behind what is read of it there are no more steps. -/
theorem StepsStand.of_goesOn (goesOn : endsStatement remaining = false) :
    context.StepsStand levels document
      (.halt ((Cause.reading (.unexpected (context.shown remaining))).onLine (context.lineOf remaining)) ::
        step :: found).reverse := by
  by_cases equation : ∃ line program, step = .equation line program
  · obtain ⟨line, program, rfl⟩ := equation
    have cutOff := (statement_isComplete_or_isCutOff start read).2 goesOn
    rw [← whole] at cutOff
    refine .inr ⟨found.reverse, line, program, remaining, complete.reverse, cutOff, goesOn, ?_⟩
    rw [List.reverse_cons, List.reverse_cons, List.append_assoc]
    rfl
  · refine .of_complete [_, step] complete ?_
    simp only [List.mem_cons, List.not_mem_nil, or_false]
    rintro _ (rfl | rfl) line program same
    · cases same
    · exact equation ⟨line, program, same⟩

end Found

/-- The steps from some tokens of a document on stand, if the equations found before come from complete statements and
a statement may start there or is just over. -/
theorem stepsFrom_stand {inside : Bool} (passed : List Token)
    (whole : document = passed ++ tokens)
    (starts : inside = true → StartsStatement passed ∨ endsStatement tokens = true)
    (complete : AreComplete levels document found) :
    context.StepsStand levels document
      (context.stepsFrom (context.production levels .expression) inside found tokens) := by
  fun_induction stepsFrom context (context.production levels .expression) inside found tokens
    generalizing passed with
  -- The end of the block and the end of a statement.
  | case1 found line rest remaining advanced ih =>
      exact ih (passed ++ [⟨.blockClose, line⟩]) (by simp [whole]) (by simp) complete
  | case3 found line rest remaining advanced ih =>
      refine ih (passed ++ [⟨.statementEnd, line⟩]) (by simp [whole]) (fun _ => ?_) complete
      exact .inl ⟨passed, _, rfl, .inr rfl⟩
  -- A statement.
  | case5 found tokens notClose notEnd step read => exact .of_refused complete read
  | case6 found tokens notClose notEnd step remaining read ended ih =>
      have start := (starts rfl).resolve_right (not_endsStatement notClose notEnd)
      obtain ⟨word, taken⟩ := suffix_of_statement read
      exact ih (passed ++ word) (by simp [whole, ← taken]) (fun _ => .inr ended)
        (areComplete_statement complete whole start read ended)
  | case7 found tokens notClose notEnd step remaining read goesOn =>
      have start := (starts rfl).resolve_right (not_endsStatement notClose notEnd)
      exact .of_goesOn complete whole start read (Bool.eq_false_iff.mpr goesOn)
  -- Outside of blocks.
  | case8 => exact .of_complete [] complete (by simp)
  | case9 inside found outside token rest _ _ remaining advanced ih
  | case11 inside found outside token rest _ _ remaining advanced ih =>
      exact ih (passed ++ [token]) (by simp [whole]) (by simp) (.cons (by simp) complete)
  | case13 inside found outside token rest opened remaining advanced ih =>
      refine ih (passed ++ [token]) (by simp [whole]) (fun _ => ?_) complete
      exact .inl ⟨passed, token, rfl, .inl opened⟩
  -- The end of the document in between.
  | case2 | case4 | case14 | case15 => exact .of_complete [_] complete (by simp)
  | case10 | case12 => exact .of_complete [_, _] complete (by simp)

theorem steps_stand (context : Context) (tokens : List Token) :
    context.StepsStand context.settings.nestingLevels tokens (context.steps tokens) := by
  unfold steps
  split
  · exact .of_complete [_] .nil (by simp)
  · exact stepsFrom_stand [] rfl (by simp) .nil

end Context

/-- The equation steps of a document come from complete statements, except for the last one if the
document stops right after it within its statement. -/
theorem documentSteps_stand (settings : Settings) (text : String) :
    Context.StepsStand ⟨settings, (scan settings text).ending⟩ settings.nestingLevels
      (scan settings text).tokens (documentSteps settings text) :=
  Context.steps_stand ⟨settings, (scan settings text).ending⟩ (scan settings text).tokens

end EquationText
