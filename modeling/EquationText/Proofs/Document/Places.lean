import EquationText.Proofs.Document.Statements
import EquationText.Proofs.Document.Steps
import EquationText.Proofs.Grammar.Offence
import EquationText.Proofs.Token.Layout

/-! # What the steps of a document are about

Each equation, command and unfinished statement among the steps of a document is read from the tokens that
start at one of a statement, and each fault in reading is that of the scan or an offence at a token
(`EquationText.documentSteps_havePlaces`).
-/

namespace EquationText

/-- Whether some tokens at the start of a document are read without a refusal, up to a place outside of blocks
or to one where a statement may start: inside of blocks they are those of whole statements. -/
inductive IsReadThrough (levels : Nat) : Bool → List Token → Prop
  | start : IsReadThrough levels false []
  | outside {earlier : List Token} {token : Token} (read : IsReadThrough levels false earlier)
    (between : token.lexeme.turn? false = some false) : IsReadThrough levels false (earlier ++ [token])
  | opened {earlier : List Token} {opener : Token} (read : IsReadThrough levels false earlier)
    (opens : opener.lexeme = .blockOpen) : IsReadThrough levels true (earlier ++ [opener])
  | ended {earlier word : List Token} {token : Token} (read : IsReadThrough levels true earlier)
    (statement : word = [] ∨ IsWholeStatement levels word) (ends : token.lexeme = .statementEnd) :
    IsReadThrough levels true (earlier ++ (word ++ [token]))
  | closed {earlier word : List Token} {token : Token} (read : IsReadThrough levels true earlier)
    (statement : word = [] ∨ IsWholeStatement levels word) (closes : token.lexeme = .blockClose) :
    IsReadThrough levels false (earlier ++ (word ++ [token]))

/-- Whether a fault is that of the first statement of a document which is refused, and has the line of the token
at which it is. -/
inductive IsRefusal (settings : Settings) (document : List Token) : Fault → Prop
  | intro {earlier passed others : List Token} {next : Token} {cause : ReadingFault}
    (whole : document = earlier ++ (passed ++ next :: others))
    (read : IsReadThrough settings.nestingLevels true earlier) (isAt : cause.IsAt settings next)
    (offence : IsOffence settings.nestingLevels passed next cause) :
    IsRefusal settings document ((Cause.reading cause).onLine next.line)

/-- Whether a step is that of the statement which starts with a token of a document. -/
def Step.IsReadAt (context : Context) (document : List Token) (first : Token) (step : Step) : Prop :=
  ∃ earlier others, document = earlier ++ first :: others ∧
    IsReadThrough context.settings.nestingLevels true earlier ∧
    (context.statement (context.production context.settings.nestingLevels .expression)
      (first :: others)).1 = step

/-- Whether a fault is that of the scan of a document, or of a statement that is refused. -/
def Context.Blames (context : Context) (document : List Token) (fault : Fault) : Prop :=
  context.ending = .error fault ∨ IsRefusal context.settings document fault

/-- Whether a step has its place in a document: a statement is read from there, and what is refused is so for a
reason. -/
def Step.HasPlace (context : Context) (document : List Token) : Step → Prop
  | text _ | reference _ => True
  | halt fault => context.Blames document fault
  | unfinished line begun program fault =>
    (∃ first, first.line = line ∧ IsReadAt context document first (unfinished line begun program fault)) ∧
      context.Blames document fault
  | equation line program => ∃ first, first.line = line ∧ IsReadAt context document first (equation line program)
  | command line name payload =>
    ∃ first, first.line = line ∧ IsReadAt context document first (command line name payload)

/-- Whether some tokens are those of a whole statement before others: an equation that ends there, or a
command. -/
inductive IsStatementBefore (levels : Nat) (rest : List Token) : List Token → Prop
  | equation {word : List Token} {tree : Expr} (derives : DerivesEquation levels word tree)
    (ends : EquationEndsBefore word rest) : IsStatementBefore levels rest word
  | command (name payload : String) (line : Nat) : IsStatementBefore levels rest [⟨.command name payload, line⟩]

theorem IsStatementBefore.isWhole {levels : Nat} {rest word : List Token}
    (statement : IsStatementBefore levels rest word) : IsWholeStatement levels word := by
  cases statement with
  | equation derives _ => exact .inl ⟨_, derives⟩
  | command name payload line => exact .inr ⟨name, payload, line, rfl⟩

theorem Lexeme.isInner_of_isOfExpression {lexeme : Lexeme} (expression : lexeme.isOfExpression = true) :
    lexeme.isInner = true := by
  cases lexeme <;> first | rfl | cases expression

variable {context : Context} {document tokens rest remaining earlier : List Token} {found : List Step}
  {step : Step} {last : Bool}

namespace Context

/-! ## Inside of blocks -/

/-- Inside of a block that is closed, or that the scan stopped in, reading does not get past the tokens. -/
theorem lasts_of_advance (ends : last = true → ∃ fault, context.ending = .error fault)
    (turns : turns? true rest = some last) (moves : (context.advance rest).outcome = .ok remaining) :
    context.Lasts rest := by
  cases last with
  | true =>
      obtain ⟨fault, ending⟩ := ends rfl
      refine .inr ⟨?_, fault, ending⟩
      rintro rfl
      rw [advance_of_ended ending] at moves
      cases moves
  | false => exact .inl (exists_blockClose turns)

/-- What a statement takes and what it leaves: a command, or an equation that ends there. -/
theorem statement_takes {levels : Nat} (lasts : context.Lasts tokens)
    (read : context.statement (context.production levels .expression) tokens = (step, some remaining)) :
    ∃ word, tokens = word ++ remaining ∧ context.Lasts remaining ∧ IsStatementBefore levels remaining word := by
  unfold statement at read
  split at read
  · rename_i name payload line rest
    split at read
    · rename_i moves
      cases read
      obtain rfl := context.advance_outcome_ok moves
      refine ⟨[⟨.command name payload, line⟩], rfl, ?_, .command name payload line⟩
      rcases lasts.tail (by simp) with left | ⟨rfl, fault, ending⟩
      · exact left
      · rw [advance_of_ended ending] at moves
        cases moves
    · cases read
  · simp only at read
    split at read
    · rename_i ok
      cases read
      obtain ⟨word, tree, rfl, derives, ends, left⟩ := equation_takes lasts ok
      exact ⟨word, rfl, left, .equation derives ends⟩
    · cases read

theorem isInner_of_isStatementBefore {levels : Nat} {word : List Token}
    (statement : IsStatementBefore levels rest word) : ∀ token ∈ word, token.lexeme.isInner = true := by
  cases statement with
  | equation derives ends =>
      exact fun token member => Lexeme.isInner_of_isOfExpression (derives.isOfExpression token member)
  | command name payload line => exact List.forall_mem_singleton.mpr rfl

/-- The step of a statement has its place. -/
theorem statement_hasPlace (whole : document = earlier ++ tokens)
    (through : IsReadThrough context.settings.nestingLevels true earlier) (lasts : context.Lasts tokens) :
    (context.statement (context.production context.settings.nestingLevels .expression) tokens).1.HasPlace
      context document := by
  obtain ⟨first, others, rfl⟩ := List.exists_cons_of_ne_nil lasts.ne_nil
  generalize same : context.statement _ (first :: others) = result
  obtain ⟨step, next⟩ := result
  have isRead : step.IsReadAt context document first :=
    ⟨earlier, others, whole, through, congrArg Prod.fst same⟩
  unfold statement at same
  split at same
  · rename_i command
    cases command
    split at same
    · cases same
      exact ⟨_, rfl, isRead⟩
    · rename_i failed
      cases same
      exact ⟨⟨_, rfl, isRead⟩, .inl (advance_refuses failed)⟩
  · rename_i noCommand
    simp only at same
    split at same
    · cases same
      exact ⟨first, rfl, isRead⟩
    · rename_i failed
      cases same
      refine ⟨⟨first, rfl, isRead⟩, ?_⟩
      have other : ∀ token ∈ (first :: others).head?, ∀ name payload,
          token.lexeme ≠ .command name payload := by
        rintro ⟨lexeme, line⟩ head name payload rfl
        cases head
        exact noCommand name payload line others rfl
      rcases exists_offence lasts other failed with ending | ⟨passed, next, rest, cause, same, isAt, offence, rfl⟩
      · exact .inl ending
      · exact .inr (.intro (by rw [whole, same]) through isAt offence)

/-- After a statement no other token comes than one that ends it. -/
theorem blames_unexpected (whole : document = earlier ++ tokens)
    (through : IsReadThrough context.settings.nestingLevels true earlier) (lasts : context.Lasts tokens)
    (goesOn : ¬ endsStatement remaining = true)
    (read : context.statement (context.production context.settings.nestingLevels .expression) tokens =
      (step, some remaining)) :
    context.Blames document ((Cause.reading (.unexpected (context.shown remaining))).onLine
      (context.lineOf remaining)) := by
  obtain ⟨word, rfl, left, statement⟩ := statement_takes lasts read
  obtain ⟨next, rest, rfl⟩ := List.exists_cons_of_ne_nil left.ne_nil
  refine .inr (.intro whole through .unexpected ?_)
  rw [endsStatement_cons] at goesOn
  have unended : next.lexeme.endsStatement = true → ∀ more, ¬ IsWholeStatement more word :=
    fun ends => (goesOn ends).elim
  cases statement with
  | @equation _ tree derives ends =>
      refine .misplaced rfl (.inl ⟨[], tree, by rwa [List.append_nil]⟩) (fun more => ?_) unended
      rintro (⟨later, other, longer⟩ | ⟨name, payload, line, start⟩)
      · rw [List.append_assoc] at longer
        exact derives.not_derives_append ends.of_head (List.cons_ne_nil _ _) longer
      · exact derives.ne_nil (nil_of_append_isPrefix start)
  | command name payload line =>
      refine .misplaced rfl (.inr ⟨name, payload, line, List.prefix_rfl⟩) (fun more => ?_) unended
      rintro (⟨later, other, longer⟩ | ⟨other, given, position, start⟩)
      · cases longer.isOfExpression _ (List.mem_cons_self ..)
      · cases nil_of_append_isPrefix start

/-- Whether some tokens at the start of a document are read without a refusal, with at most one statement that
is not ended yet; the tokens after it end it. -/
def IsReadUpTo (levels : Nat) (inside : Bool) (earlier tokens : List Token) : Prop :=
  ∃ before word, earlier = before ++ word ∧ IsReadThrough levels inside before ∧
    (word = [] ∨ inside = true ∧ IsWholeStatement levels word ∧ endsStatement tokens = true)

theorem IsReadUpTo.of_through {levels : Nat} {inside : Bool} (through : IsReadThrough levels inside earlier)
    (tokens : List Token) : IsReadUpTo levels inside earlier tokens :=
  ⟨earlier, [], (List.append_nil _).symm, through, .inl rfl⟩

/-- Before a token that ends no statement there is none that is not ended. -/
theorem IsReadUpTo.through {levels : Nat} {inside : Bool} (upTo : IsReadUpTo levels inside earlier tokens)
    (between : inside = true → ¬ endsStatement tokens = true) : IsReadThrough levels inside earlier := by
  obtain ⟨before, word, rfl, through, rfl | ⟨open', _, ends⟩⟩ := upTo
  · rwa [List.append_nil]
  · exact (between open' ends).elim

/-- What ends a block or a statement comes after the statement that is not ended yet. -/
theorem IsReadUpTo.past {levels : Nat} {inside : Bool} {token : Token}
    (upTo : IsReadUpTo levels true earlier (token :: rest))
    (further : ∀ before word, IsReadThrough levels true before → (word = [] ∨ IsWholeStatement levels word) →
      IsReadThrough levels inside (before ++ (word ++ [token]))) :
    IsReadUpTo levels inside (earlier ++ [token]) rest := by
  obtain ⟨before, word, rfl, through, statement⟩ := upTo
  rw [List.append_assoc]
  exact .of_through (further before word through (statement.imp_right (·.2.1))) _

/-- How far the reading of a document has come: what is before some of its tokens is read without a refusal, and
from them on it does not get past a block, and ends inside of one if `last` holds. -/
structure IsReading (context : Context) (document : List Token) (last inside : Bool) (earlier tokens : List Token) :
    Prop where
  whole : document = earlier ++ tokens
  turns : turns? inside tokens = some last
  upTo : IsReadUpTo context.settings.nestingLevels inside earlier tokens
  lasts : inside = true → context.Lasts tokens

namespace IsReading

variable {token : Token} {line : Nat}

/-- Past the end of a block. -/
theorem closed (reading : context.IsReading document last true earlier (⟨.blockClose, line⟩ :: rest)) :
    context.IsReading document last false (earlier ++ [⟨.blockClose, line⟩]) rest where
  whole := by simp [reading.whole]
  turns := reading.turns
  upTo := reading.upTo.past fun _ _ through statement => .closed through statement rfl
  lasts := nofun

/-- Past a token outside of blocks that opens none. -/
theorem outside (between : token.lexeme.turn? false = some false)
    (reading : context.IsReading document last false earlier (token :: rest)) :
    context.IsReading document last false (earlier ++ [token]) rest where
  whole := by simp [reading.whole]
  turns := by
    have turns := reading.turns
    rwa [turns?_cons, between] at turns
  upTo := .of_through (.outside (reading.upTo.through nofun) between) _
  lasts := nofun

section Inside

variable (ends : last = true → ∃ fault, context.ending = .error fault)
  (advanced : (context.advance rest).outcome = .ok remaining)
include ends advanced

/-- Past the start of a block. -/
theorem opened (opens : token.lexeme = .blockOpen)
    (reading : context.IsReading document last false earlier (token :: rest)) :
    context.IsReading document last true (earlier ++ [token]) rest := by
  have turns : turns? true rest = some last := by
    have turns := reading.turns
    rwa [turns?_cons, opens] at turns
  exact {
    whole := by simp [reading.whole]
    turns
    upTo := .of_through (.opened (reading.upTo.through nofun) opens) _
    lasts _ := lasts_of_advance ends turns advanced }

/-- Past the end of a statement. -/
theorem ended (reading : context.IsReading document last true earlier (⟨.statementEnd, line⟩ :: rest)) :
    context.IsReading document last true (earlier ++ [⟨.statementEnd, line⟩]) rest where
  whole := by simp [reading.whole]
  turns := reading.turns
  upTo := reading.upTo.past fun _ _ through statement => .ended through statement rfl
  lasts _ := lasts_of_advance ends reading.turns advanced

end Inside

section Statement

variable {next : Option (List Token)}
  (reading : context.IsReading document last true earlier tokens) (starts : ¬ endsStatement tokens = true)
include reading starts

theorem hasPlace (read : context.statement (context.production context.settings.nestingLevels .expression) tokens =
    (step, next)) : step.HasPlace context document := by
  have placed := statement_hasPlace reading.whole (reading.upTo.through fun _ => starts) (reading.lasts rfl)
  rwa [read] at placed

variable (read : context.statement (context.production context.settings.nestingLevels .expression) tokens =
  (step, some remaining))
include read

/-- Past a statement that is ended. -/
theorem statement (finished : endsStatement remaining = true) :
    ∃ word, context.IsReading document last true (earlier ++ word) remaining := by
  have through := reading.upTo.through fun _ => starts
  obtain ⟨word, rfl, left, statement⟩ := statement_takes (reading.lasts rfl) read
  have turns := reading.turns
  rw [turns?_append, turns?_of_isInner (isInner_of_isStatementBefore statement)] at turns
  exact ⟨word, {
    whole := by simp [reading.whole]
    turns
    upTo := ⟨earlier, word, rfl, through, .inr ⟨rfl, statement.isWhole, finished⟩⟩
    lasts _ := left }⟩

/-- A statement that goes on behind what is read of it has the fault of the token there. -/
theorem blames (goesOn : ¬ endsStatement remaining = true) :
    context.Blames document ((Cause.reading (.unexpected (context.shown remaining))).onLine
      (context.lineOf remaining)) :=
  blames_unexpected reading.whole (reading.upTo.through fun _ => starts) (reading.lasts rfl) goesOn read

end Statement

end IsReading

/-- The steps from some tokens of a document on have their places in it, if those found before do. -/
theorem stepsFrom_havePlaces {inside : Bool} (ends : last = true → ∃ fault, context.ending = .error fault)
    (reading : context.IsReading document last inside earlier tokens)
    (before : ∀ step ∈ found, step.HasPlace context document) :
    ∀ step ∈ context.stepsFrom (context.production context.settings.nestingLevels .expression) inside found
      tokens, step.HasPlace context document := by
  have all : ∀ {steps : List Step}, (∀ step ∈ steps, step.HasPlace context document) →
      ∀ step ∈ steps.reverse, step.HasPlace context document :=
    fun holds step member => holds step (List.mem_reverse.mp member)
  have failing : ∀ {rest : List Token} {fault : Fault}, (context.advance rest).outcome = .error fault →
      (Step.halt fault).HasPlace context document := fun failed => .inl (advance_refuses failed)
  fun_induction stepsFrom context (context.production context.settings.nestingLevels .expression) inside found
    tokens generalizing earlier with
  -- The end of the block and the end of a statement.
  | case1 found line rest remaining advanced ih => exact ih reading.closed before
  | case3 found line rest remaining advanced ih => exact ih (reading.ended ends advanced) before
  | case2 found line rest fault failed | case4 found line rest fault failed =>
      exact all (List.forall_mem_cons.mpr ⟨failing failed, before⟩)
  -- A statement.
  | case5 found tokens notClose notEnd step read =>
      have starts := not_endsStatement notClose notEnd
      exact all (List.forall_mem_cons.mpr ⟨reading.hasPlace starts read, before⟩)
  | case6 found tokens notClose notEnd step remaining read finished ih =>
      have starts := not_endsStatement notClose notEnd
      obtain ⟨word, later⟩ := reading.statement starts read finished
      exact ih later (List.forall_mem_cons.mpr ⟨reading.hasPlace starts read, before⟩)
  | case7 found tokens notClose notEnd step remaining read goesOn =>
      have starts := not_endsStatement notClose notEnd
      exact all (List.forall_mem_cons.mpr ⟨reading.blames starts read goesOn,
        List.forall_mem_cons.mpr ⟨reading.hasPlace starts read, before⟩⟩)
  -- Outside of blocks.
  | case8 => exact all before
  | case9 inside found outside token rest raw text remaining advanced ih =>
      obtain rfl : inside = false := Bool.eq_false_iff.mpr outside
      exact ih (reading.outside (by rw [text]; rfl)) (List.forall_mem_cons.mpr ⟨trivial, before⟩)
  | case11 inside found outside token rest name reference remaining advanced ih =>
      obtain rfl : inside = false := Bool.eq_false_iff.mpr outside
      exact ih (reading.outside (by rw [reference]; rfl)) (List.forall_mem_cons.mpr ⟨trivial, before⟩)
  | case13 inside found outside token rest opens remaining advanced ih =>
      obtain rfl : inside = false := Bool.eq_false_iff.mpr outside
      exact ih (reading.opened ends advanced opens) before
  | case10 inside found outside token rest _ _ fault failed | case12 inside found outside token rest _ _ fault failed =>
      exact all (List.forall_mem_cons.mpr ⟨failing failed, List.forall_mem_cons.mpr ⟨trivial, before⟩⟩)
  | case14 inside found outside token rest opens fault failed =>
      exact all (List.forall_mem_cons.mpr ⟨failing failed, before⟩)
  | case15 inside found outside token rest notText notReference notOpen =>
      -- No other token stands outside of blocks.
      obtain rfl : inside = false := Bool.eq_false_iff.mpr outside
      have turns := reading.turns
      rw [turns?_cons] at turns
      cases lexeme : token.lexeme with
      | text raw => exact (notText raw lexeme).elim
      | reference name => exact (notReference name lexeme).elim
      | blockOpen => exact (notOpen lexeme).elim
      | _ =>
          rw [lexeme] at turns
          cases turns

end Context

/-- The steps of a document have their places in it. -/
theorem documentSteps_havePlaces {settings : Settings} (usual : settings.HasUsualMarks) (text : String) :
    ∀ step ∈ documentSteps settings text,
      step.HasPlace ⟨settings, (scan settings text).ending⟩ (scan settings text).tokens := by
  obtain ⟨last, turns, ends⟩ := (scan_layout usual text).turns
  unfold documentSteps Context.steps
  simp only
  split
  · rename_i ending
    exact List.forall_mem_singleton.mpr (.inl ending)
  · have reading : Context.IsReading ⟨settings, (scan settings text).ending⟩ (scan settings text).tokens last false []
        (scan settings text).tokens :=
      { whole := rfl, turns, upTo := .of_through .start _, lasts := nofun }
    exact Context.stepsFrom_havePlaces ends reading (List.forall_mem_nil _)

/-! ## Statements on one line -/

/-- A statement starts inside of a block. -/
theorem turns?_of_opener {inside : Bool} {opener : Token}
    (opens : opener.lexeme = .blockOpen ∨ opener.lexeme = .statementEnd)
    (turns : turns? inside (opener :: rest) = some last) : turns? true rest = some last := by
  rw [turns?_cons] at turns
  rcases opens with same | same <;> rw [same] at turns <;> cases inside <;> first | exact turns | cases turns

/-- The tokens of a statement have one line each. -/
theorem isOnOneLine_of_turns {statement : List Token} (turns : turns? true (statement ++ rest) = some last)
    (whole : ∀ token ∈ statement, token.lexeme.endsStatement = false) :
    ∀ token ∈ statement, token.lexeme.isOnOneLine = true := by
  induction statement with
  | nil => exact List.forall_mem_nil _
  | cons token statement ih =>
      obtain ⟨head, others⟩ := List.forall_mem_cons.mp whole
      rw [List.cons_append, turns?_cons] at turns
      have both : token.lexeme.isOnOneLine = true ∧ token.lexeme.turn? true = some true := by
        cases lexeme : token.lexeme <;> rw [lexeme] at turns head <;>
          first | exact ⟨rfl, rfl⟩ | cases turns | cases head
      rw [both.2] at turns
      exact List.forall_mem_cons.mpr ⟨both.1, ih turns others⟩

/-- The tokens of a statement are on one line. -/
theorem IsStatement.line_eq {settings : Settings} (usual : settings.HasUsualMarks) {text : String}
    {first : Token} {others : List Token}
    (isStatement : IsStatement (scan settings text).tokens (first :: others) rest) :
    ∀ token ∈ first :: others, token.line = first.line := by
  obtain ⟨⟨earlier, opener, whole, opens⟩, inStatement, _⟩ := isStatement
  have ends := scan_layout usual text
  obtain ⟨last, turns, _⟩ := ends.turns
  obtain ⟨left, inside, passed, layout⟩ := ends.layout
  have single : ∀ token ∈ first :: others, token.lexeme.isOnOneLine = true := by
    rw [whole, turns?_append] at turns
    obtain ⟨before, _, turns⟩ := Option.bind_eq_some_iff.mp turns
    exact isOnOneLine_of_turns (turns?_of_opener opens turns) inStatement
  rw [whole, List.append_cons] at layout
  exact fun token member => layout.line_eq_of_mem usual single member

end EquationText
