import EquationText.Proofs.Document.Statements
import EquationText.Proofs.Fault
import EquationText.Proofs.Token.Unreadable

/-! # The programs in the steps of a document

The program of an equation step is that of an equation, the program of a statement that cannot be read
to its end is made of the programs of some trees, and the faults in reading are no misuse
(`EquationText.documentSteps_isSound`).
-/

namespace EquationText

/-! ## Steps -/

/-- Whether the program and the fault of a step are such as a document leads to, where faults in reading
are of some kind. -/
def Step.IsSound (levels : Nat) (refuses : Fault → Prop) : Step → Prop
  | equation _ program => ∃ word tree, DerivesEquation levels word tree ∧ program = tree.program
  | unfinished _ _ program fault =>
    refuses fault ∧ ∃ trees, (∀ tree ∈ trees, tree.isWellFormed = true) ∧ program = Expr.programs trees
  | halt fault => refuses fault
  | text _ | reference _ | command _ _ _ => True

namespace Context

variable {context : Context} {tokens : List Token} {found : List Step}

/-- Moving past a token succeeds unless the scan stopped there. -/
theorem outcome_advance {rest : List Token} (goesOn : rest = [] → ∃ line, context.ending = .ok line) :
    (context.advance rest).outcome = .ok rest := by
  cases rest with
  | cons next tail => rfl
  | nil =>
      obtain ⟨line, ended⟩ := goesOn rfl
      simp only [advance, ended]
      rfl

theorem advance_refuses {rest : List Token} {fault : Fault}
    (failed : (context.advance rest).outcome = .error fault) : context.ending = .error fault := by
  unfold advance at failed
  split at failed
  · rename_i ended
    cases failed
    exact ended
  · cases failed

/-- The step for a token of literal text, if it is one. -/
def written? : Lexeme → Option Step
  | .text raw => some (.text raw)
  | .reference name => some (.reference name)
  | _ => none

/-- A property of the steps of statements, of those for the literal text and of the faults outside of
statements is one of all the steps of a document. -/
theorem forall_stepsFrom {P : Step → Prop} {levels : Nat} {inside : Bool}
    (literal : ∀ token ∈ tokens, ∀ step, written? token.lexeme = some step → P step)
    (statement : ∀ tokens, P (context.statement (context.production levels .expression) tokens).1)
    (ending : ∀ fault, context.ending = .error fault → P (.halt fault))
    (unexpected : ∀ shown line, P (.halt ((Cause.reading (.unexpected shown)).onLine line)))
    (before : ∀ step ∈ found, P step) :
    ∀ step ∈ context.stepsFrom (context.production levels .expression) inside found tokens, P step := by
  have all : ∀ {steps : List Step}, (∀ step ∈ steps, P step) → ∀ step ∈ steps.reverse, P step :=
    fun holds step member => holds step (List.mem_reverse.mp member)
  have ended : ∀ {rest : List Token} {fault : Fault}, (context.advance rest).outcome = .error fault →
      P (.halt fault) := fun failed => ending _ (advance_refuses failed)
  have read : ∀ {tokens step next},
      context.statement (context.production levels .expression) tokens = (step, next) → P step := by
    intro tokens step next same
    have holds := statement tokens
    rwa [same] at holds
  have later : ∀ {part whole : List Token},
      (∀ token ∈ whole, ∀ step, written? token.lexeme = some step → P step) → part ⊆ whole →
        ∀ token ∈ part, ∀ step, written? token.lexeme = some step → P step :=
    fun holds inside token member => holds token (inside member)
  fun_induction stepsFrom context (context.production levels .expression) inside found tokens with
  -- The end of the block and the end of a statement.
  | case1 found line rest remaining advanced ih => exact ih (later literal (List.subset_cons_self ..)) before
  | case2 found line rest fault failed => exact all (List.forall_mem_cons.mpr ⟨ended failed, before⟩)
  | case3 found line rest remaining advanced ih => exact ih (later literal (List.subset_cons_self ..)) before
  | case4 found line rest fault failed => exact all (List.forall_mem_cons.mpr ⟨ended failed, before⟩)
  -- A statement.
  | case5 found tokens notClose notEnd step same =>
      exact all (List.forall_mem_cons.mpr ⟨read same, before⟩)
  | case6 found tokens notClose notEnd step remaining same ended ih =>
      exact ih (later literal (suffix_of_statement same).subset)
        (List.forall_mem_cons.mpr ⟨read same, before⟩)
  | case7 found tokens notClose notEnd step remaining same open' =>
      exact all (List.forall_mem_cons.mpr
        ⟨unexpected _ _, List.forall_mem_cons.mpr ⟨read same, before⟩⟩)
  -- Outside of blocks.
  | case8 => exact all before
  | case9 inside found outside token rest raw lexeme remaining advanced ih =>
      have first : P (.text raw) := literal token (List.mem_cons_self ..) _ (by rw [lexeme]; rfl)
      exact ih (later literal (List.subset_cons_self ..)) (List.forall_mem_cons.mpr ⟨first, before⟩)
  | case10 inside found outside token rest raw lexeme fault failed =>
      have first : P (.text raw) := literal token (List.mem_cons_self ..) _ (by rw [lexeme]; rfl)
      exact all (List.forall_mem_cons.mpr ⟨ended failed, List.forall_mem_cons.mpr ⟨first, before⟩⟩)
  | case11 inside found outside token rest name lexeme remaining advanced ih =>
      have first : P (.reference name) := literal token (List.mem_cons_self ..) _ (by rw [lexeme]; rfl)
      exact ih (later literal (List.subset_cons_self ..)) (List.forall_mem_cons.mpr ⟨first, before⟩)
  | case12 inside found outside token rest name lexeme fault failed =>
      have first : P (.reference name) := literal token (List.mem_cons_self ..) _ (by rw [lexeme]; rfl)
      exact all (List.forall_mem_cons.mpr ⟨ended failed, List.forall_mem_cons.mpr ⟨first, before⟩⟩)
  | case13 inside found outside token rest lexeme remaining advanced ih =>
      exact ih (later literal (List.subset_cons_self ..)) before
  | case14 inside found outside token rest lexeme fault failed =>
      exact all (List.forall_mem_cons.mpr ⟨ended failed, before⟩)
  | case15 => exact all (List.forall_mem_cons.mpr ⟨unexpected _ _, before⟩)

/-- The step of a statement is that of an equation that is derived, of a command, or of a refusal with the values
that were built before it. -/
theorem statement_isSound (context : Context) (levels : Nat) (tokens : List Token) :
    (context.statement (context.production levels .expression) tokens).1.IsSound levels context.Refuses := by
  have reading := equation_builds context levels [] tokens
  unfold statement
  split
  · split
    · trivial
    · rename_i failed
      exact ⟨.inl (advance_refuses failed), [], List.forall_mem_nil _, rfl⟩
  · simp only
    split
    · rename_i ok
      obtain ⟨_, ⟨programs, _⟩, word, tree, rfl, _, derives, _⟩ := reading.outcome _ ok
      exact ⟨word, tree, derives, by simpa [Expr.programs] using programs.symm⟩
    · rename_i failed
      obtain ⟨refuses, trees, programs, wellFormed⟩ := reading.refusal _ failed
      exact ⟨refuses, trees, wellFormed (List.forall_mem_nil _), programs.symm⟩

end Context

/-- Whether the scan of a document stops at a letter or a digit that starts no name and no numeral; it is
found in the document if the marks are the usual ones. -/
structure HasUnreadable (settings : Settings) (text : String) : Prop where
  ending : (scan settings text).ending = .error Cause.unreadableCharacter.unplaced
  place : ∃ left, IsUnreadable left ∧ (settings.HasUsualMarks → left <:+ text.toList)

/-- How the reading of a document stops: at a character that cannot be read, or with a reported fault of
documents that has a line. -/
inductive ReadingStops (settings : Settings) (text : String) : Fault → Prop
  | unreadable (has : HasUnreadable settings text) :
      ReadingStops settings text Cause.unreadableCharacter.unplaced
  | reported {cause : Cause} (line : Nat) (ordinary : cause.IsOrdinary) (reported : cause.isReported = true) :
      ReadingStops settings text (cause.onLine line)

theorem Context.Refuses.readingStops {settings : Settings} {text : String} {fault : Fault}
    (refuses : Context.Refuses ⟨settings, (scan settings text).ending⟩ fault) :
    ReadingStops settings text fault := by
  rcases refuses with ended | ⟨cause, line, rfl, grammatical⟩
  · obtain ⟨left, isFault, within⟩ := scan_fault ended
    cases isFault with
    | unreadable starts => exact .unreadable ⟨ended, left, starts, within⟩
    | strayCharacter c line => exact .reported line rfl rfl
    | unterminatedBlock line => exact .reported line rfl rfl
    | missingCommandName line => exact .reported line rfl rfl
  · cases cause <;> first | exact .reported line rfl rfl | cases grammatical

/-- The steps of a document are such as documents lead to. -/
theorem documentSteps_isSound (settings : Settings) (text : String) :
    ∀ step ∈ documentSteps settings text,
      step.IsSound settings.nestingLevels (ReadingStops settings text) := by
  let context : Context := ⟨settings, (scan settings text).ending⟩
  have refuses : ∀ step : Step, step.IsSound settings.nestingLevels context.Refuses →
      step.IsSound settings.nestingLevels (ReadingStops settings text) := by
    intro step sound
    cases step with
    | unfinished line begun program fault => exact ⟨sound.1.readingStops, sound.2⟩
    | halt fault => exact Context.Refuses.readingStops sound
    | _ => exact sound
  have ending : ∀ fault, context.ending = .error fault → context.Refuses fault := fun fault => .inl
  intro step member
  refine refuses step ?_
  revert step
  unfold documentSteps Context.steps
  simp only
  split
  · rename_i ended
    exact List.forall_mem_singleton.mpr (ending _ ended)
  · have literal : ∀ lexeme step, Context.written? lexeme = some step →
        step.IsSound settings.nestingLevels context.Refuses := by
      intro lexeme step written
      cases lexeme <;> cases written <;> trivial
    exact Context.forall_stepsFrom (fun token _ => literal token.lexeme)
      (fun tokens => Context.statement_isSound _ _ tokens) ending (fun _ _ => .inr ⟨_, _, rfl, rfl⟩)
      (List.forall_mem_nil _)

end EquationText
