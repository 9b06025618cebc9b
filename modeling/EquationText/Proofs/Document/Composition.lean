import EquationText.Proofs.Document.Run
import EquationText.Proofs.Document.Steps
import EquationText.Proofs.Grammar.Continuation

/-! # Documents in two parts

A document that ends with a block does what it does when it is continued: the steps of the whole are its
steps and then those of the second part on lines further down, unless a fault ends the first part
(`EquationText.documentSteps_append`), and the whole is carried out like one part after the other
(`EquationText.Engine.performAll_documentSteps_append`).
-/

namespace EquationText

/-- The step on lines further down. -/
def Step.movedDown (lines : Nat) : Step → Step
  | equation line program => equation (line + lines) program
  | command line name payload => command (line + lines) name payload
  | unfinished line begun program fault =>
    unfinished (line + lines) begun program (fault.movedDown lines)
  | halt fault => halt (fault.movedDown lines)
  | step => step

@[simp]
theorem Step.isRefusal_movedDown (lines : Nat) (step : Step) :
    (step.movedDown lines).isRefusal = step.isRefusal := by
  cases step <;> rfl

/-- Whether some steps come in the place of a part and what is later: both, or the part alone if a fault in
reading ends it. -/
def Continues (part later steps : List Step) : Prop :=
  steps = part ++ later ∨ steps = part ∧ ∃ step ∈ part, step.isRefusal = true

/-! ## Refusals end a run -/

namespace Engine

variable {σ ν : Type} (engine : Engine σ ν) {step : Step} {part later steps : List Step}

/-- A step that stands for a fault in reading always fails. -/
theorem perform_refusal_error (refusal : step.isRefusal = true) (before : Traced (Session σ ν)) :
    ∃ fault after, engine.perform step before = (.error fault, after) := by
  have placed : ∀ (action : Action (Session σ ν) Unit) line fault,
      ∃ found after, inStatement line (action >>= fun _ => Action.fail fault : Action _ Unit) before =
        (.error found, after) := by
    intro action line fault
    rcases run : action before with ⟨found | _, after⟩
    · simp only [inStatement, Action.onFault, Action.run_bind_of_error run]
      exact ⟨_, _, rfl⟩
    · simp only [inStatement, Action.onFault, Action.run_bind_of_ok run, Action.fail]
      exact ⟨_, _, rfl⟩
  cases step with
  | unfinished line begun program fault =>
      cases begun with
      | false => exact placed (pure ()) line fault
      | true =>
          obtain ⟨found, after, run⟩ := placed (do Session.begin; engine.executeAll program) line fault
          rw [Action.bind_assoc] at run
          exact ⟨found, after, run⟩
  | halt fault => exact ⟨fault, before, rfl⟩
  | _ => cases refusal

theorem performAll_of_refusal (refused : ∃ step ∈ part, step.isRefusal = true)
    (before : Traced (Session σ ν)) :
    ∃ fault after, engine.performAll part before = (.error fault, after) := by
  obtain ⟨step, member, refusal⟩ := refused
  obtain ⟨first, rest, rfl⟩ := List.append_of_mem member
  rw [performAll_append]
  rcases run : engine.performAll first before with ⟨fault | _, middle⟩
  · exact ⟨fault, middle, Action.run_bind_of_error run⟩
  · obtain ⟨fault, after, failed⟩ := engine.perform_refusal_error refusal middle
    exact ⟨fault, after, (Action.run_bind_of_ok run).trans (Action.run_bind_of_error failed)⟩

theorem performAll_of_continues (continues : Continues part later steps) :
    engine.performAll steps = (do engine.performAll part; engine.performAll later) := by
  rcases continues with rfl | ⟨rfl, refused⟩
  · exact performAll_append engine part later
  · funext before
    obtain ⟨fault, after, failed⟩ := engine.performAll_of_refusal refused before
    rw [failed, Action.run_bind_of_error failed]

end Engine

/-! ## Steps -/

namespace Context

variable {context : Context} {side : Production} {inside : Bool} {found earlier : List Step}
  {tokens rest : List Token} {line : Nat}

/-- The steps from a token on that is passed over: none come after it if the scan stops right there. -/
def stepsPast (context : Context) (side : Production) (inside : Bool) (found : List Step)
    (rest : List Token) : List Step :=
  match (context.advance rest).outcome with
  | .ok _ => context.stepsFrom side inside found rest
  | .error fault => (.halt fault :: found).reverse

theorem stepsPast_of_ok (moves : (context.advance rest).outcome = .ok tokens) :
    context.stepsPast side inside found rest = context.stepsFrom side inside found rest := by
  rw [stepsPast, moves]

theorem stepsPast_of_error {fault : Fault} (stops : (context.advance rest).outcome = .error fault) :
    context.stepsPast side inside found rest = (.halt fault :: found).reverse := by
  rw [stepsPast, stops]

theorem stepsFrom_close (rest : List Token) :
    context.stepsFrom side true found (⟨.blockClose, line⟩ :: rest) =
      context.stepsPast side false found rest := by
  rw [stepsFrom]
  rfl

theorem stepsFrom_statementEnd (rest : List Token) :
    context.stepsFrom side true found (⟨.statementEnd, line⟩ :: rest) =
      context.stepsPast side true found rest := by
  rw [stepsFrom]
  rfl

/-- Where no statement is over, the next step is that of a statement, and then comes its end or a refusal. -/
theorem stepsFrom_statement (goesOn : endsStatement tokens = false) :
    context.stepsFrom side true found tokens =
      match context.statement side tokens with
      | (step, none) => (step :: found).reverse
      | (step, some remaining) =>
        if endsStatement remaining then context.stepsFrom side true (step :: found) remaining
        else (.halt ((Cause.reading (.unexpected (context.shown remaining))).onLine
          (context.lineOf remaining)) :: step :: found).reverse := by
  rw [stepsFrom.eq_def]
  simp only [↓reduceIte]
  split
  · cases goesOn
  · cases goesOn
  · split <;> rename_i read <;> simp only [read]

/-- A statement that is not read to its end has a step that stands for the fault. -/
theorem isRefusal_of_statement {step : Step} (read : context.statement side tokens = (step, none)) :
    step.isRefusal = true := by
  unfold statement at read
  split at read
  · split at read
    · cases read
    · cases read
      rfl
  · simp only at read
    split at read
    · cases read
    · cases read
      rfl

theorem stepsFrom_written {lexeme : Lexeme} {step : Step} (written : written? lexeme = some step)
    (line : Nat) (rest : List Token) :
    context.stepsFrom side false found (⟨lexeme, line⟩ :: rest) =
      context.stepsPast side false (step :: found) rest := by
  rw [stepsFrom.eq_def]
  cases lexeme <;> cases written <;> rfl

theorem stepsFrom_open (line : Nat) (rest : List Token) :
    context.stepsFrom side false found (⟨.blockOpen, line⟩ :: rest) =
      context.stepsPast side true found rest := by
  rw [stepsFrom.eq_def]
  rfl

theorem stepsFrom_stray {lexeme : Lexeme} (written : written? lexeme = none) (closed : lexeme ≠ .blockOpen)
    (line : Nat) (rest : List Token) :
    context.stepsFrom side false found (⟨lexeme, line⟩ :: rest) =
      (.halt ((Cause.reading (.unexpected (lexeme.shown context.settings))).onLine line) ::
        found).reverse := by
  rw [stepsFrom.eq_def]
  cases lexeme with
  | text raw => cases written
  | reference name => cases written
  | blockOpen => exact (closed rfl).elim
  | _ => rfl

theorem stepsFrom_nil : context.stepsFrom side false found [] = found.reverse := by
  rw [stepsFrom.eq_def]
  rfl

theorem stepsPast_append
    (later : context.stepsFrom side inside (found ++ earlier) rest =
      earlier.reverse ++ context.stepsFrom side inside found rest) :
    context.stepsPast side inside (found ++ earlier) rest =
      earlier.reverse ++ context.stepsPast side inside found rest := by
  unfold stepsPast
  split
  · exact later
  · simp

/-- Steps that were found before come before the others. -/
theorem stepsFrom_append (context : Context) (side : Production) (inside : Bool) (earlier found : List Step)
    (tokens : List Token) :
    context.stepsFrom side inside (found ++ earlier) tokens =
      earlier.reverse ++ context.stepsFrom side inside found tokens := by
  induction size : tokens.length using Nat.strong_induction_on generalizing inside found tokens with
  | _ size ih =>
  subst size
  have past : ∀ {token : Token} {rest : List Token} (inside : Bool) (found : List Step),
      tokens = token :: rest → context.stepsPast side inside (found ++ earlier) rest =
        earlier.reverse ++ context.stepsPast side inside found rest := by
    rintro token rest inside found rfl
    exact stepsPast_append (ih rest.length (Nat.lt_succ_self _) inside found rest rfl)
  cases inside with
  | true =>
      by_cases ends : endsStatement tokens = true
      · unfold endsStatement at ends
        split at ends
        · rw [stepsFrom_statementEnd, stepsFrom_statementEnd]
          exact past true found rfl
        · rw [stepsFrom_close, stepsFrom_close]
          exact past false found rfl
        · cases ends
      · have goesOn := Bool.eq_false_iff.mpr ends
        rw [stepsFrom_statement goesOn, stepsFrom_statement goesOn]
        split
        · simp
        · rename_i step remaining read
          split
          · exact ih _ (context.statement_length_lt (by rw [read])) true (step :: found) remaining rfl
          · simp
  | false =>
      cases tokens with
      | nil => simp [stepsFrom_nil]
      | cons token rest =>
          obtain ⟨lexeme, line⟩ := token
          cases written : written? lexeme with
          | some step =>
              rw [stepsFrom_written written, stepsFrom_written written]
              exact past false (step :: found) rfl
          | none =>
              by_cases opened : lexeme = .blockOpen
              · subst opened
                rw [stepsFrom_open, stepsFrom_open]
                exact past true found rfl
              · rw [stepsFrom_stray written opened, stepsFrom_stray written opened]
                simp

end Context

namespace Continuation

variable {c : Continuation} {item wholeItem : Production} {tokens rest : List Token} {inside : Bool}
  {token : Token}

/-- A statement of the larger document leads to the step that it leads to in the part. -/
theorem statement_follows (carries : c.Carries item wholeItem) (isOpen : c.IsOpen tokens) :
    c.whole.statement wholeItem (c.tokens tokens) =
        ((c.part.statement item tokens).1.movedDown c.lines,
          (c.part.statement item tokens).2.map c.tokens) ∧
      ∀ rest, (c.part.statement item tokens).2 = some rest → c.IsOpen rest := by
  by_cases command : ∃ name payload line rest, tokens = ⟨.command name payload, line⟩ :: rest
  · obtain ⟨name, payload, line, rest, rfl⟩ := command
    have follows := advance_follows isOpen (by simp)
    simp only [tokens_cons, Context.statement]
    cases ended : (c.part.advance rest).outcome with
    | ok remaining =>
        obtain ⟨left, same⟩ := follows.ok remaining ended
        simp only [same]
        refine ⟨rfl, ?_⟩
        rintro _ ⟨⟩
        exact left
    | error fault =>
        simp only [follows.error fault ended]
        exact ⟨rfl, by rintro _ ⟨⟩⟩
  · have plain : ∀ token ∈ tokens.head?, ∀ name payload, token.lexeme ≠ .command name payload := by
      rintro ⟨lexeme, line⟩ head name payload rfl
      obtain ⟨rest, rfl⟩ := List.head?_eq_some_iff.mp head
      exact command ⟨name, payload, line, rest, rfl⟩
    have plainWhole : ∀ token ∈ (c.tokens tokens).head?, ∀ name payload,
        token.lexeme ≠ .command name payload := by
      rintro ⟨lexeme, line⟩ head name payload rfl
      obtain ⟨tail, same⟩ := List.head?_eq_some_iff.mp head
      obtain ⟨position, rest, found⟩ := isOpen.head same
      exact command ⟨name, payload, position, rest, found⟩
    have follows := equation_follows carries isOpen
    rw [Context.statement_of_no_command plain, Context.statement_of_no_command plainWhole]
    cases ended : (c.part.equation item tokens).outcome with
    | ok remaining =>
        obtain ⟨left, same⟩ := follows.ok remaining ended
        simp only [same, isOpen.lineOf, follows.program]
        refine ⟨rfl, ?_⟩
        rintro _ ⟨⟩
        exact left
    | error fault =>
        simp only [follows.error fault ended, isOpen.lineOf, follows.program]
        exact ⟨rfl, by rintro _ ⟨⟩⟩

variable (c) in
/-- Whether the steps of a document can be read on from some tokens in the same way in the larger document:
nothing comes after them there, or they end with a block. -/
def IsOpenAt (inside : Bool) (tokens : List Token) : Prop :=
  (c.more = [] ∧ c.whole.ending = endingMovedDown c.lines c.part.ending ∧
      (tokens = [] → ∃ line, c.part.ending = .ok line)) ∨
    EndsClosed tokens ∧ (inside = true → tokens ≠ []) ∧ (∃ line, c.part.ending = .ok line) ∧
      (c.more = [] → ∃ line, c.whole.ending = .ok line)

/-- Moving past a token outside of statements succeeds in both documents, or fails in both. -/
theorem IsOpenAt.advance (isOpen : c.IsOpenAt inside (token :: rest)) :
    ((c.part.advance rest).outcome = .ok rest ∧
        (c.whole.advance (c.tokens rest)).outcome = .ok (c.tokens rest) ∧
        ∀ next, (next = true → token.lexeme ≠ .blockClose) → c.IsOpenAt next rest) ∨
      ∃ fault, (c.part.advance rest).outcome = .error fault ∧
        (c.whole.advance (c.tokens rest)).outcome = .error (fault.movedDown c.lines) := by
  rcases isOpen with ⟨none, same, _⟩ | ⟨closed, _, part, whole⟩
  · have tokens_eq : c.tokens rest = rest.map (·.movedDown c.lines) := by
      rw [Continuation.tokens, none, List.append_nil]
    by_cases last : rest = [] ∧ ∃ fault, c.part.ending = .error fault
    · obtain ⟨rfl, fault, ended⟩ := last
      refine .inr ⟨fault, by simp only [Context.advance, ended]; rfl, ?_⟩
      rw [tokens_eq]
      simp only [List.map_nil, Context.advance, same, ended, endingMovedDown]
      rfl
    · have ends : rest = [] → ∃ line, c.part.ending = .ok line := by
        intro empty
        cases ended : c.part.ending with
        | ok line => exact ⟨line, rfl⟩
        | error fault => exact (last ⟨empty, fault, ended⟩).elim
      refine .inl ⟨Context.outcome_advance ends, Context.outcome_advance fun empty => ?_,
        fun next _ => .inl ⟨none, same, ends⟩⟩
      rw [tokens_eq, List.map_eq_nil_iff] at empty
      obtain ⟨line, ended⟩ := ends empty
      exact ⟨line + c.lines, by rw [same, ended]; rfl⟩
  · refine .inl ⟨Context.outcome_advance fun _ => part, Context.outcome_advance fun empty => ?_,
      fun next inside => ?_⟩
    · exact whole (List.append_eq_nil_iff.mp empty).2
    · refine .inr ⟨closed.tail, fun stays => ?_, part, whole⟩
      rintro rfl
      exact inside stays (closed token rfl)

theorem IsOpen.endsStatement (isOpen : c.IsOpen tokens) :
    Context.endsStatement (c.tokens tokens) = Context.endsStatement tokens := by
  cases tokens with
  | nil => rw [isOpen.tokens_nil]
  | cons token rest => rw [tokens_cons, Context.endsStatement_cons, Context.endsStatement_cons]

theorem IsOpenAt.isOpen (isOpen : c.IsOpenAt true tokens) : c.IsOpen tokens := by
  rcases isOpen with same | ⟨closed, nonempty, _⟩
  · exact .inr same
  · have last := List.getLast?_eq_some_getLast (nonempty rfl)
    exact .inl ⟨_, List.getLast_mem (nonempty rfl), closed _ last⟩

/-- What follows a statement that is read to its end can be read on from. -/
theorem IsOpenAt.statement {levels : Nat} {step : Step} (isOpen : c.IsOpenAt true tokens)
    (read : c.part.statement (c.part.production levels .expression) tokens = (step, some rest))
    (ended : Context.endsStatement rest = true) : c.IsOpenAt true rest := by
  have nonempty : rest ≠ [] := by
    rintro rfl
    cases ended
  rcases isOpen with ⟨none, endings, _⟩ | ⟨closed, _, part, whole⟩
  · exact .inl ⟨none, endings, fun empty => (nonempty empty).elim⟩
  · exact .inr ⟨closed.of_suffix (Context.suffix_of_statement read), fun _ => nonempty, part, whole⟩

section Continues

variable {later found : List Step} {next : Bool}

/-- Both documents stop at a fault that was found in the part. -/
theorem halt_continues (fault : Fault) (found : List Step) :
    Continues ((Step.halt fault :: found).reverse.map (·.movedDown c.lines)) later
      (.halt (fault.movedDown c.lines) :: found.map (·.movedDown c.lines)).reverse := by
  refine .inr ⟨by rw [List.map_reverse, List.map_cons]; rfl, .halt (fault.movedDown c.lines), ?_, rfl⟩
  simp [Step.movedDown]

/-- Both documents pass over a token in the same way. -/
theorem stepsPast_continues (isOpen : c.IsOpenAt inside (token :: rest))
    (stays : next = true → token.lexeme ≠ .blockClose)
    (continues : c.IsOpenAt next rest →
      Continues ((c.part.stepsFrom item next found rest).map (·.movedDown c.lines)) later
        (c.whole.stepsFrom wholeItem next (found.map (·.movedDown c.lines)) (c.tokens rest))) :
    Continues ((c.part.stepsPast item next found rest).map (·.movedDown c.lines)) later
      (c.whole.stepsPast wholeItem next (found.map (·.movedDown c.lines)) (c.tokens rest)) := by
  rcases isOpen.advance with ⟨part, whole, left⟩ | ⟨fault, part, whole⟩
  · rw [Context.stepsPast_of_ok part, Context.stepsPast_of_ok whole]
    exact continues (left next stays)
  · rw [Context.stepsPast_of_error part, Context.stepsPast_of_error whole]
    exact halt_continues fault found

/-- Both documents read a statement in the same way. -/
theorem stepsFrom_statement_continues {levels : Nat}
    (carries : c.Carries (c.part.production levels .expression) wholeItem)
    (isOpen : c.IsOpenAt true tokens) (goesOn : Context.endsStatement tokens = false)
    (continues : ∀ step remaining,
      c.part.statement (c.part.production levels .expression) tokens = (step, some remaining) →
      c.IsOpenAt true remaining →
      Continues ((c.part.stepsFrom (c.part.production levels .expression) true (step :: found)
          remaining).map (·.movedDown c.lines)) later
        (c.whole.stepsFrom wholeItem true ((step :: found).map (·.movedDown c.lines))
          (c.tokens remaining))) :
    Continues
      ((c.part.stepsFrom (c.part.production levels .expression) true found tokens).map
        (·.movedDown c.lines)) later
      (c.whole.stepsFrom wholeItem true (found.map (·.movedDown c.lines)) (c.tokens tokens)) := by
  have opened := isOpen.isOpen
  obtain ⟨same, left⟩ := statement_follows carries opened
  rw [Context.stepsFrom_statement goesOn,
    Context.stepsFrom_statement (opened.endsStatement.trans goesOn), same]
  rcases read : c.part.statement (c.part.production levels .expression) tokens with
    ⟨step, _ | remaining⟩
  · refine .inr ⟨by simp, step.movedDown c.lines, by simp, ?_⟩
    rw [Step.isRefusal_movedDown]
    exact Context.isRefusal_of_statement read
  · have leftOpen := left remaining (by rw [read])
    simp only [Option.map_some, leftOpen.endsStatement]
    split
    · rename_i ended
      exact continues step remaining read (isOpen.statement read ended)
    · rw [leftOpen.shown, leftOpen.lineOf]
      exact halt_continues _ (step :: found)

end Continues

/-- The steps of the larger document are those of the part, on lines further down, and then those of what
comes after it. -/
theorem stepsFrom_continues (levels : Nat) (found : List Step) (isOpen : c.IsOpenAt inside tokens) :
    Continues
      ((c.part.stepsFrom (c.part.production levels .expression) inside found tokens).map
        (·.movedDown c.lines))
      (c.whole.stepsFrom (c.whole.production levels .expression) false [] c.more)
      (c.whole.stepsFrom (c.whole.production levels .expression) inside
        (found.map (·.movedDown c.lines)) (c.tokens tokens)) := by
  have carries : c.Carries (c.part.production levels .expression) (c.whole.production levels .expression) :=
    expression_carries (operand_carries c levels)
  induction size : tokens.length using Nat.strong_induction_on generalizing inside found tokens with
  | _ size ih =>
  subst size
  cases inside with
  | true =>
      by_cases ends : Context.endsStatement tokens = true
      · unfold Context.endsStatement at ends
        split at ends
        · rename_i line rest
          rw [tokens_cons, Context.stepsFrom_statementEnd, Context.stepsFrom_statementEnd]
          exact stepsPast_continues isOpen (by simp) fun left =>
            ih rest.length (Nat.lt_succ_self _) found left rfl
        · rename_i line rest
          rw [tokens_cons, Context.stepsFrom_close, Context.stepsFrom_close]
          exact stepsPast_continues isOpen (by simp) fun left =>
            ih rest.length (Nat.lt_succ_self _) found left rfl
        · cases ends
      · exact stepsFrom_statement_continues carries isOpen (Bool.eq_false_iff.mpr ends)
          fun step remaining read left =>
            ih _ (c.part.statement_length_lt (by rw [read])) (step :: found) left rfl
  | false =>
      cases tokens with
      | nil =>
          refine .inl ?_
          rw [Context.stepsFrom_nil, List.map_reverse, ← Context.stepsFrom_append, List.nil_append]
          rfl
      | cons token rest =>
          obtain ⟨lexeme, line⟩ := token
          rw [tokens_cons]
          cases written : Context.written? lexeme with
          | some step =>
              rw [Context.stepsFrom_written written, Context.stepsFrom_written written]
              have same : step :: found.map (·.movedDown c.lines) =
                  (step :: found).map (·.movedDown c.lines) := by
                cases lexeme <;> cases written <;> rfl
              rw [same]
              exact stepsPast_continues isOpen (by simp) fun left =>
                ih rest.length (Nat.lt_succ_self _) (step :: found) left rfl
          | none =>
              by_cases opened : lexeme = .blockOpen
              · subst opened
                rw [Context.stepsFrom_open, Context.stepsFrom_open]
                exact stepsPast_continues isOpen (by simp) fun left =>
                  ih rest.length (Nat.lt_succ_self _) found left rfl
              · rw [Context.stepsFrom_stray written opened, Context.stepsFrom_stray written opened,
                  c.settings]
                exact halt_continues _ found

end Continuation

/-! ## Documents -/

@[simp]
theorem Fault.movedDown_zero (fault : Fault) : fault.movedDown 0 = fault := by
  obtain ⟨cause, _ | line⟩ := fault <;> rfl

@[simp]
theorem Step.movedDown_zero (step : Step) : step.movedDown 0 = step := by
  cases step <;> simp [movedDown]

theorem Context.steps_eq_stepsFrom {context : Context} {tokens : List Token}
    (some : tokens = [] → ∃ line, context.ending = .ok line) :
    context.steps tokens =
      context.stepsFrom (context.production context.settings.nestingLevels .expression) false [] tokens := by
  unfold steps
  split
  · rename_i failed
    obtain ⟨line, ended⟩ := some rfl
    rw [failed] at ended
    cases ended
  · rfl

variable {settings : Settings}

/-- A document that could not be scanned to its end has tokens. -/
theorem scan_ends (settings : Settings) (text : String) (none : (scan settings text).tokens = []) :
    ∃ line, (scan settings text).ending = .ok line := by
  cases ended : (scan settings text).ending with
  | ok line => exact ⟨line, rfl⟩
  | error fault => exact (scanDocument_ne_nil ended none).elim

theorem documentSteps_eq_stepsFrom (settings : Settings) (text : String) :
    documentSteps settings text =
      Context.stepsFrom ⟨settings, (scan settings text).ending⟩
        (Context.production ⟨settings, (scan settings text).ending⟩ settings.nestingLevels .expression)
        false [] (scan settings text).tokens :=
  Context.steps_eq_stepsFrom (scan_ends settings text)

/-- The steps of a document further down. -/
theorem stepsFrom_movedDown (settings : Settings) (text : String) (lines : Nat) :
    Context.stepsFrom ⟨settings, endingMovedDown lines (scan settings text).ending⟩
        (Context.production ⟨settings, endingMovedDown lines (scan settings text).ending⟩
          settings.nestingLevels .expression)
        false [] ((scan settings text).tokens.map (·.movedDown lines)) =
      (documentSteps settings text).map (·.movedDown lines) := by
  let further : Continuation :=
    ⟨⟨settings, (scan settings text).ending⟩,
      ⟨settings, endingMovedDown lines (scan settings text).ending⟩,
      lines, [], rfl⟩
  have isOpen : further.IsOpenAt false (scan settings text).tokens :=
    .inl ⟨rfl, rfl, scan_ends settings text⟩
  have continues := Continuation.stepsFrom_continues settings.nestingLevels [] isOpen
  rw [Context.stepsFrom_nil, ← documentSteps_eq_stepsFrom settings text, Continuation.tokens,
    List.append_nil] at continues
  rcases continues with same | ⟨same, _⟩
  · rw [List.reverse_nil, List.append_nil] at same
    exact same
  · exact same

/-- The steps of a document that is continued after a block. -/
theorem documentSteps_append (usual : settings.HasUsualMarks) {first : String} (second : String)
    {lineAfter : Nat} (closed : EndsClosed (scan settings first).tokens)
    (ending : (scan settings first).ending = .ok lineAfter) :
    Continues (documentSteps settings first)
      ((documentSteps settings second).map (·.movedDown (lineEnds first.toList)))
      (documentSteps settings (first ++ second)) := by
  let lines := lineEnds first.toList
  let further : Continuation :=
    ⟨⟨settings, (scan settings first).ending⟩,
      ⟨settings, endingMovedDown lines (scan settings second).ending⟩,
      0, (scan settings second).tokens.map (·.movedDown lines), rfl⟩
  have last : further.more = [] → ∃ line, further.whole.ending = .ok line := by
    intro none
    obtain ⟨line, ended⟩ := scan_ends settings second (List.map_eq_nil_iff.mp none)
    exact ⟨line + lines, congrArg (endingMovedDown lines) ended⟩
  have isOpen : further.IsOpenAt false (scan settings first).tokens :=
    .inr ⟨closed, by simp, ⟨lineAfter, ending⟩, last⟩
  have continues := Continuation.stepsFrom_continues settings.nestingLevels [] isOpen
  have whole := scan_append usual second closed ending
  have steps : ∀ steps : List Step, steps.map (·.movedDown further.lines) = steps := fun steps => by
    simp only [further, Step.movedDown_zero, List.map_id']
  have tokens : further.tokens (scan settings first).tokens =
      (scan settings first).tokens ++ (scan settings second).tokens.map (·.movedDown lines) :=
    congrArg (· ++ _) (List.map_id _)
  rw [steps, tokens] at continues
  rw [documentSteps_eq_stepsFrom settings (first ++ second), documentSteps_eq_stepsFrom settings first, whole,
    ← stepsFrom_movedDown]
  exact continues

namespace Engine

variable {σ ν : Type}

/-- A document that is continued after a block is carried out like one part after the other. -/
theorem performAll_documentSteps_append (engine : Engine σ ν) (usual : settings.HasUsualMarks)
    {first : String} (second : String) {lineAfter : Nat}
    (closed : EndsClosed (scan settings first).tokens)
    (ending : (scan settings first).ending = .ok lineAfter) :
    engine.performAll (documentSteps settings (first ++ second)) = (do
      engine.performAll (documentSteps settings first)
      engine.performAll ((documentSteps settings second).map (·.movedDown (lineEnds first.toList)))) :=
  engine.performAll_of_continues (documentSteps_append usual second closed ending)

end Engine

end EquationText
