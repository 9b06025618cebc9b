import EquationText.Proofs.Grammar.Completeness
import EquationText.Proofs.Token.Continuation

/-! # Reading a document further down

The tokens of a document may stand further down, with more tokens after them. As long as reading does not
reach the end of the first ones, or nothing comes after them, the same programs are read and the same
faults arise, on lines further down (`EquationText.Continuation.equation_follows`). There is one lemma for
each production of the grammar.
-/

namespace EquationText

/-- A context, and the one of a larger document: the tokens stand `lines` further down there, and have the
tokens `more` after them. -/
structure Continuation where
  part : Context
  whole : Context
  lines : Nat
  more : List Token
  settings : whole.settings = part.settings

namespace Continuation

variable (c : Continuation)

/-- The tokens of the larger document. -/
def tokens (tokens : List Token) : List Token := tokens.map (·.movedDown c.lines) ++ c.more

/-- Whether the end of the tokens is not reached in reading statements, as a block is closed before, or is
the same in the larger document. -/
def IsOpen (tokens : List Token) : Prop :=
  (∃ token ∈ tokens, token.lexeme = .blockClose) ∨
    c.more = [] ∧ c.whole.ending = endingMovedDown c.lines c.part.ending ∧
      (tokens = [] → ∃ line, c.part.ending = .ok line)

/-- Whether a reading of the larger document does what one of the part does. -/
structure Follows (read whole : Reading (List Token)) : Prop where
  program : whole.program = read.program
  ok : ∀ rest, read.outcome = .ok rest → c.IsOpen rest ∧ whole.outcome = .ok (c.tokens rest)
  error : ∀ fault, read.outcome = .error fault → whole.outcome = .error (fault.movedDown c.lines)

/-- Whether a production reads the larger document as another one reads the part. -/
def Carries (production whole : Production) : Prop :=
  ∀ tokens, c.IsOpen tokens → c.Follows (production.read tokens) (whole.read (c.tokens tokens))

variable {c} {token : Token} {tokens rest : List Token}

/-! ## Tokens -/

theorem tokens_cons (token : Token) (rest : List Token) :
    c.tokens (token :: rest) = ⟨token.lexeme, token.line + c.lines⟩ :: c.tokens rest := rfl

theorem IsOpen.tokens_nil (isOpen : c.IsOpen []) : c.tokens [] = [] := by
  rcases isOpen with ⟨token, member, _⟩ | ⟨none, _⟩
  · cases member
  · exact none

/-- The larger document has the lexeme that comes next in the part. -/
theorem IsOpen.head (isOpen : c.IsOpen tokens) {lexeme : Lexeme} {line : Nat} {tail : List Token}
    (same : c.tokens tokens = ⟨lexeme, line⟩ :: tail) :
    ∃ position rest, tokens = ⟨lexeme, position⟩ :: rest := by
  cases tokens with
  | nil =>
      rw [isOpen.tokens_nil] at same
      cases same
  | cons token rest =>
      cases same
      exact ⟨token.line, rest, rfl⟩

theorem IsOpen.lineOf (isOpen : c.IsOpen tokens) :
    c.whole.lineOf (c.tokens tokens) = c.part.lineOf tokens + c.lines := by
  cases tokens with
  | cons token rest => rfl
  | nil =>
      rw [isOpen.tokens_nil]
      rcases isOpen with ⟨token, member, _⟩ | ⟨_, same, last⟩
      · cases member
      · obtain ⟨line, ended⟩ := last rfl
        simp only [Context.lineOf, same, ended, endingMovedDown]

theorem IsOpen.shown (isOpen : c.IsOpen tokens) :
    c.whole.shown (c.tokens tokens) = c.part.shown tokens := by
  cases tokens with
  | nil =>
      rw [isOpen.tokens_nil]
      rfl
  | cons token rest => rw [tokens_cons, Context.shown, Context.shown, c.settings]

/-! ## Readings -/

theorem Follows.of_pure (isOpen : c.IsOpen tokens) :
    c.Follows (pure tokens) (pure (c.tokens tokens)) where
  program := rfl
  ok := by
    rintro rest ⟨⟩
    exact ⟨isOpen, rfl⟩
  error := by
    rintro fault ⟨⟩

theorem Follows.of_fail (fault : Fault) :
    c.Follows (.fail fault) (.fail (fault.movedDown c.lines)) where
  program := rfl
  ok := by
    rintro rest ⟨⟩
  error := by
    rintro found ⟨⟩
    rfl

/-- A sequence of readings is followed if each of them is. -/
theorem Follows.bind {first whole : Reading (List Token)}
    {next wholeNext : List Token → Reading (List Token)}
    (left : c.Follows first whole)
    (right : ∀ rest, first.outcome = .ok rest → c.IsOpen rest →
      c.Follows (next rest) (wholeNext (c.tokens rest))) :
    c.Follows (first >>= next) (whole >>= wholeNext) := by
  obtain ⟨program, outcome⟩ := first
  obtain ⟨wholeProgram, wholeOutcome⟩ := whole
  obtain rfl : wholeProgram = program := left.program
  cases outcome with
  | error fault =>
      obtain rfl : wholeOutcome = .error (fault.movedDown c.lines) := left.error fault rfl
      exact ⟨rfl, by rintro rest ⟨⟩, by rintro found ⟨⟩; rfl⟩
  | ok rest =>
      obtain ⟨isOpen, same⟩ := left.ok rest rfl
      obtain rfl : wholeOutcome = .ok (c.tokens rest) := same
      have later := right rest rfl isOpen
      exact ⟨congrArg (_ ++ ·) later.program, later.ok, later.error⟩

/-- An instruction is added to both readings. -/
theorem Follows.emit_bind (instruction : Instruction) {next whole : Reading (List Token)}
    (follows : c.Follows next whole) :
    c.Follows (Reading.emit instruction >>= fun _ => next) (Reading.emit instruction >>= fun _ => whole) :=
  ⟨congrArg (_ :: ·) follows.program, follows.ok, follows.error⟩

/-- A fault at the next token, which it may quote. -/
theorem refuse_follows (fault : String → ReadingFault) (isOpen : c.IsOpen tokens) :
    c.Follows (c.part.refuse (fault (c.part.shown tokens)) tokens)
      (c.whole.refuse (fault (c.whole.shown (c.tokens tokens))) (c.tokens tokens)) := by
  rw [Context.refuse, Context.refuse, isOpen.lineOf, isOpen.shown]
  exact .of_fail _

/-- Passing over a token that closes no block reaches no end that is not one of the larger document. -/
theorem advance_follows (isOpen : c.IsOpen (token :: rest)) (inside : token.lexeme ≠ .blockClose) :
    c.Follows (c.part.advance rest) (c.whole.advance (c.tokens rest)) := by
  cases rest with
  | cons next tail =>
      refine .of_pure (isOpen.imp ?_ fun same => ⟨same.1, same.2.1, by rintro ⟨⟩⟩)
      rintro ⟨found, member, close⟩
      exact ⟨found, (List.mem_cons.mp member).resolve_left fun same => inside (same ▸ close), close⟩
  | nil =>
      rcases isOpen with ⟨found, member, close⟩ | ⟨none, same, _⟩
      · cases List.mem_singleton.mp member
        exact (inside close).elim
      · have empty : c.tokens [] = [] := none
        cases ended : c.part.ending with
        | ok line =>
            have whole : c.whole.advance (c.tokens []) = pure (c.tokens []) := by
              simp only [Context.advance, empty, same, ended, endingMovedDown]
            have part : c.part.advance [] = pure [] := by simp only [Context.advance, ended]
            rw [whole, part]
            exact .of_pure (.inr ⟨none, same, fun _ => ⟨line, ended⟩⟩)
        | error fault =>
            have whole : c.whole.advance (c.tokens []) = .fail (fault.movedDown c.lines) := by
              simp only [Context.advance, empty, same, ended, endingMovedDown]
            have part : c.part.advance [] = .fail fault := by simp only [Context.advance, ended]
            rw [whole, part]
            exact .of_fail fault

/-- A mark that is expected is found or missed in the larger document as in the part. -/
theorem expectMark_follows (sign : Char) (isOpen : c.IsOpen tokens) :
    c.Follows (c.part.expectMark sign tokens) (c.whole.expectMark sign (c.tokens tokens)) := by
  have refused := refuse_follows (.missing sign.toString) isOpen
  cases tokens with
  | nil =>
      rw [isOpen.tokens_nil] at refused ⊢
      exact refused
  | cons token rest =>
      obtain ⟨lexeme, line⟩ := token
      cases lexeme with
      | mark found =>
          simp only [tokens_cons, Context.expectMark]
          split
          · exact advance_follows isOpen (by simp)
          · exact refused
      | _ => exact refused

/-! ## Expressions -/

variable {item wholeItem inner wholeInner operand wholeOperand : Production}

theorem operatorStep_follows (carries : c.Carries item wholeItem) (operator : Operator)
    (isOpen : c.IsOpen (token :: rest)) (inside : token.lexeme ≠ .blockClose) :
    c.Follows (c.part.operatorStep item operator rest)
      (c.whole.operatorStep wholeItem operator (c.tokens rest)) :=
  .bind (advance_follows isOpen inside) fun _ _ opened =>
    .bind (carries _ opened) fun _ _ left => .emit_bind _ (.of_pure left)

/-- At one of its operators a chain reads another item and goes on. -/
theorem chainRest_some {context : Context} {operators : Char → Option Operator} {sign : Char}
    {operator : Operator} (known : operators sign = some operator) (line : Nat) (rest : List Token) :
    context.chainRest operators item (⟨.operator sign, line⟩ :: rest) =
      (context.operatorStep item operator rest >>= context.chainRest operators item) := by
  rw [Context.chainRest]
  split
  · rename_i unknown
    rw [known] at unknown
    cases unknown
  · rename_i found same
    cases known.symm.trans same
    simp only [Bind.bind]
    split <;> rename_i ended <;> rw [ended]

/-- The rest of a chain, by induction on the number of tokens: each operator leaves fewer of them. -/
theorem chainRest_follows (operators : Char → Option Operator) (carries : c.Carries item wholeItem)
    (isOpen : c.IsOpen tokens) :
    c.Follows (c.part.chainRest operators item tokens)
      (c.whole.chainRest operators wholeItem (c.tokens tokens)) := by
  induction size : tokens.length using Nat.strong_induction_on generalizing tokens with
  | _ size ih =>
  subst size
  by_cases goesOn : ∃ sign line rest operator,
      tokens = ⟨.operator sign, line⟩ :: rest ∧ operators sign = some operator
  · obtain ⟨sign, line, rest, operator, rfl, known⟩ := goesOn
    rw [chainRest_some known, tokens_cons, chainRest_some known]
    refine .bind (operatorStep_follows carries operator isOpen (by simp)) fun remaining ok left => ?_
    exact ih _ (Nat.lt_succ_of_lt (c.part.operatorStep_length_lt ok)) left rfl
  · have ends : ∀ sign line rest, tokens = ⟨.operator sign, line⟩ :: rest → operators sign = none := by
      intro sign line rest same
      refine Option.eq_none_iff_forall_not_mem.mpr fun operator known => ?_
      exact goesOn ⟨sign, line, rest, operator, same, known⟩
    have endsWhole : ∀ sign line rest, c.tokens tokens = ⟨.operator sign, line⟩ :: rest →
        operators sign = none := by
      intro sign line rest same
      obtain ⟨position, tail, found⟩ := isOpen.head same
      exact ends sign position tail found
    rw [Context.chainRest_of_none ends, Context.chainRest_of_none endsWhole]
    exact .of_pure isOpen

theorem chain_carries (operators : Char → Option Operator) (carries : c.Carries item wholeItem) :
    c.Carries (c.part.chain operators item) (c.whole.chain operators wholeItem) := fun tokens isOpen =>
  .bind (carries tokens isOpen) fun _ _ left => chainRest_follows operators carries left

theorem expression_carries (carries : c.Carries operand wholeOperand) :
    c.Carries (c.part.expression operand) (c.whole.expression wholeOperand) :=
  chain_carries _ (chain_carries _ carries)

theorem parenthesised_follows (carries : c.Carries inner wholeInner) (isOpen : c.IsOpen (token :: rest))
    (inside : token.lexeme ≠ .blockClose) :
    c.Follows (c.part.parenthesised inner rest) (c.whole.parenthesised wholeInner (c.tokens rest)) :=
  .bind (advance_follows isOpen inside) fun _ _ opened =>
    .bind (carries _ opened) fun _ _ left => expectMark_follows ')' left

/-- The argument of a function, which stands in parentheses. -/
theorem argument_follows (carries : c.Carries inner wholeInner) (isOpen : c.IsOpen tokens) :
    c.Follows (c.part.argument inner tokens) (c.whole.argument wholeInner (c.tokens tokens)) := by
  by_cases call : ∃ line rest, tokens = ⟨.mark '(', line⟩ :: rest
  · obtain ⟨line, rest, rfl⟩ := call
    exact .bind (parenthesised_follows carries isOpen (by simp)) fun _ _ left =>
      .emit_bind _ (.of_pure left)
  · have none : ∀ line rest, tokens ≠ ⟨.mark '(', line⟩ :: rest := fun line rest same =>
      call ⟨line, rest, same⟩
    rw [Context.argument_of_no_call none, Context.argument_of_no_call]
    · exact .of_pure isOpen
    · intro line rest same
      obtain ⟨position, tail, found⟩ := isOpen.head same
      exact none position tail found

/-- Primary operands: names with or without an argument, numbers, unnamed unknowns and expressions in parentheses.
-/
theorem primary_carries (carries : c.Carries inner wholeInner) :
    c.Carries (c.part.primary inner) (c.whole.primary wholeInner) := by
  intro tokens isOpen
  have refused := refuse_follows .unexpected isOpen
  cases tokens with
  | nil =>
      rw [isOpen.tokens_nil] at refused ⊢
      exact refused
  | cons token rest =>
      obtain ⟨lexeme, line⟩ := token
      have pushed : ∀ {instruction : Instruction} {next wholeNext : List Token → Reading (List Token)},
          lexeme ≠ .blockClose →
          (∀ rest, c.IsOpen rest → c.Follows (next rest) (wholeNext (c.tokens rest))) →
          c.Follows (c.part.advance rest >>= fun tokens => Reading.emit instruction >>= fun _ => next tokens)
            (c.whole.advance (c.tokens rest) >>= fun tokens =>
              Reading.emit instruction >>= fun _ => wholeNext tokens) := fun inside later =>
        .bind (advance_follows isOpen inside) fun _ _ left => .emit_bind _ (later _ left)
      cases lexeme with
      | number value => exact pushed (by simp) fun _ left => .of_pure left
      | keyword word => exact pushed (by simp) fun _ left => .of_pure left
      | ident name => exact pushed (by simp) fun _ left => argument_follows carries left
      | mark sign =>
          by_cases opening : sign = '('
          · subst opening
            exact parenthesised_follows carries isOpen (by simp)
          · rw [Context.primary_of_mark opening, tokens_cons, Context.primary_of_mark opening]
            exact refused
      | _ => exact refused

theorem mediationStep_follows (carries : c.Carries inner wholeInner) (isOpen : c.IsOpen (token :: rest))
    (inside : token.lexeme ≠ .blockClose) :
    c.Follows (c.part.mediationStep inner rest) (c.whole.mediationStep wholeInner (c.tokens rest)) :=
  .bind (advance_follows isOpen inside) fun _ _ opened =>
    .bind (carries _ opened) fun _ _ first => .bind (expectMark_follows ',' first) fun _ _ comma =>
      .bind (carries _ comma) fun _ _ second => .bind (expectMark_follows ']' second) fun _ _ closed =>
        .emit_bind _ (.of_pure closed)

theorem mediations_bracket {context : Context} (line : Nat) (rest : List Token) :
    context.mediations inner (⟨.mark '[', line⟩ :: rest) =
      (context.mediationStep inner rest >>= context.mediations inner) := by
  rw [Context.mediations]
  simp only [Bind.bind]
  split <;> rename_i ended <;> rw [ended]

/-- The mediations behind an operand, by induction on the number of tokens. -/
theorem mediations_follows (carries : c.Carries inner wholeInner) (isOpen : c.IsOpen tokens) :
    c.Follows (c.part.mediations inner tokens) (c.whole.mediations wholeInner (c.tokens tokens)) := by
  induction size : tokens.length using Nat.strong_induction_on generalizing tokens with
  | _ size ih =>
  subst size
  by_cases goesOn : ∃ line rest, tokens = ⟨.mark '[', line⟩ :: rest
  · obtain ⟨line, rest, rfl⟩ := goesOn
    rw [mediations_bracket, tokens_cons, mediations_bracket]
    refine .bind (mediationStep_follows carries isOpen (by simp)) fun remaining ok left => ?_
    exact ih _ (Nat.lt_succ_of_lt (c.part.mediationStep_length_lt ok)) left rfl
  · have none : ∀ line rest, tokens ≠ ⟨.mark '[', line⟩ :: rest := fun line rest same =>
      goesOn ⟨line, rest, same⟩
    rw [Context.mediations_of_no_bracket none, Context.mediations_of_no_bracket]
    · exact .of_pure isOpen
    · intro line rest same
      obtain ⟨position, tail, found⟩ := isOpen.head same
      exact none position tail found

theorem postfixed_carries (carries : c.Carries inner wholeInner) :
    c.Carries (c.part.postfixed inner) (c.whole.postfixed wholeInner) := fun tokens isOpen =>
  .bind (primary_carries carries tokens isOpen) fun _ _ left => mediations_follows carries left

theorem exponent_follows (carries : c.Carries operand wholeOperand) (isOpen : c.IsOpen tokens) :
    c.Follows (c.part.exponent operand tokens) (c.whole.exponent wholeOperand (c.tokens tokens)) := by
  by_cases power : ∃ line rest, tokens = ⟨.operator '^', line⟩ :: rest
  · obtain ⟨line, rest, rfl⟩ := power
    exact operatorStep_follows carries .exponentiation isOpen (by simp)
  · have none : ∀ line rest, tokens ≠ ⟨.operator '^', line⟩ :: rest := fun line rest same =>
      power ⟨line, rest, same⟩
    rw [Context.exponent_of_no_power none, Context.exponent_of_no_power]
    · exact .of_pure isOpen
    · intro line rest same
      obtain ⟨position, tail, found⟩ := isOpen.head same
      exact none position tail found

theorem powered_carries (carries : c.Carries operand wholeOperand) :
    c.Carries (c.part.powered operand) (c.whole.powered wholeOperand) := fun tokens isOpen =>
  .bind (postfixed_carries (expression_carries carries) tokens isOpen) fun _ _ left =>
    exponent_follows carries left

/-- Operands with minus signs in front; each sign takes a token, so that the recursion ends. -/
theorem signed_carries (carries : c.Carries operand wholeOperand) :
    c.Carries (c.part.signed operand) (c.whole.signed wholeOperand) := by
  intro tokens isOpen
  by_cases minus : ∃ line rest, tokens = ⟨.operator '-', line⟩ :: rest
  · obtain ⟨line, rest, rfl⟩ := minus
    exact operatorStep_follows carries .negation isOpen (by simp)
  by_cases plus : ∃ line rest, tokens = ⟨.operator '+', line⟩ :: rest
  · obtain ⟨line, rest, rfl⟩ := plus
    exact .bind (advance_follows isOpen (by simp)) fun _ _ left => carries _ left
  have unsigned : ∀ {context : Context} {operand : Production} {tokens : List Token},
      (¬ ∃ line rest, tokens = ⟨.operator '-', line⟩ :: rest) →
      (¬ ∃ line rest, tokens = ⟨.operator '+', line⟩ :: rest) →
        (context.signed operand).read tokens = (context.powered operand).read tokens := by
    intro context operand tokens minus plus
    unfold Context.signed
    simp only
    split
    · exact (minus ⟨_, _, rfl⟩).elim
    · exact (plus ⟨_, _, rfl⟩).elim
    · rfl
  rw [unsigned minus plus, unsigned]
  · exact powered_carries carries tokens isOpen
  · rintro ⟨line, rest, same⟩
    exact minus (isOpen.head same)
  · rintro ⟨line, rest, same⟩
    exact plus (isOpen.head same)

theorem operand_carries (c : Continuation) (levels : Nat) :
    c.Carries (c.part.operand levels) (c.whole.operand levels) := by
  induction levels with
  | zero =>
      intro tokens isOpen
      change c.Follows (c.part.refuse c.part.settings.nestingFault tokens)
        (c.whole.refuse c.whole.settings.nestingFault (c.tokens tokens))
      rw [c.settings]
      exact refuse_follows (fun _ => c.part.settings.nestingFault) isOpen
  | succ levels ih => exact signed_carries ih

/-! ## Equations -/

/-- The right side of an equation, behind its sign. -/
theorem rightSide_follows (carries : c.Carries item wholeItem) (isOpen : c.IsOpen (token :: rest))
    (inside : token.lexeme ≠ .blockClose) :
    c.Follows (c.part.rightSide item rest) (c.whole.rightSide wholeItem (c.tokens rest)) := by
  refine .bind (advance_follows isOpen inside) fun _ _ opened =>
    .bind (carries _ opened) fun remaining _ left => ?_
  split
  · exact refuse_follows (fun _ => .secondEquals) left
  · rename_i single
    split
    · rename_i same
      obtain ⟨position, tail, found⟩ := left.head same
      exact (single position tail found).elim
    · exact .emit_bind _ (.of_pure left)

/-- An equation of the larger document is read as it is in the part. -/
theorem equation_follows (carries : c.Carries item wholeItem) (isOpen : c.IsOpen tokens) :
    c.Follows (c.part.equation item tokens) (c.whole.equation wholeItem (c.tokens tokens)) := by
  refine .bind (carries _ isOpen) fun remaining _ left => ?_
  split
  · exact rightSide_follows carries left (by simp)
  · rename_i none
    split
    · rename_i same
      obtain ⟨position, tail, found⟩ := left.head same
      exact (none position tail found).elim
    · exact refuse_follows (.missing "=") left

end Continuation

end EquationText
