import EquationText.Proofs.Grammar.Beginnings
import EquationText.Proofs.Grammar.Limits

/-! # What a reading knows of its tokens

A reading gets to know no more than the token after those it takes: before other tokens that start with the
same one it ends alike (`EquationText.Context.equation_foreseen`). Where it is refused, the tokens before are
the first ones of an equation; where it is nested too deeply, they are up to the last one. There is one lemma
for each production of the grammar.
-/

namespace EquationText

/-- Whether a fault is that of an expression that is nested too deeply. -/
def ReadingFault.isTooDeep : ReadingFault → Bool
  | tooDeep _ => true
  | _ => false

variable {category : Category} {levels : Nat} {word tokens rest : List Token} {token next : Token}

/-! ## Readings -/

instance : LawfulMonad Reading := by
  refine LawfulMonad.mk' _ (fun reading => ?_) (fun a next => rfl) fun first second third => ?_
  · obtain ⟨program, fault | a⟩ := reading
    · rfl
    · exact congrArg (Reading.mk · _) (List.append_nil program)
  · obtain ⟨program, fault | a⟩ := first
    · rfl
    · simp only [Bind.bind]
      cases (second a).outcome <;> simp

/-- Whether a fault is one of the grammar at a token, which it quotes. -/
inductive ReadingFault.IsAt (settings : Settings) (next : Token) : ReadingFault → Prop
  | unexpected : IsAt settings next (.unexpected (next.lexeme.shown settings))
  | missing (wanted : String) : IsAt settings next (.missing wanted (next.lexeme.shown settings))
  | secondEquals (equals : next.lexeme = .operator '=') : IsAt settings next .secondEquals
  | tooDeep : IsAt settings next settings.nestingFault

namespace Context

/-- Whether reading statements does not get past some tokens: the block is closed, or the scan stopped after
the last of them. -/
def Lasts (context : Context) (tokens : List Token) : Prop :=
  (∃ token ∈ tokens, token.lexeme = .blockClose) ∨ tokens ≠ [] ∧ ∃ fault, context.ending = .error fault

/-- What a reading does, after the tokens `before` that belong to the same words: it takes some tokens, it
meets the end of the scan, or it is refused at a token after which the words cannot go on. It does the same
before any other tokens with the same one first, and with any at all when the fault is that of nesting; the
flag tells whether this fault may arise at the first token. -/
inductive Foreseen (context : Context) (stops : List Token → Bool → Prop) (atOnce : Bool)
    (before : List Token) (read : List Token → Reading (List Token)) : List Token → Prop
  | taken (word : List Token) {rest : List Token} (lasts : context.Lasts rest)
    (alike : ∀ other, other.head? = rest.head? → (read (word ++ other)).outcome = .ok other) :
    Foreseen context stops atOnce before read (word ++ rest)
  | ended {tokens : List Token} {fault : Fault} (ending : context.ending = .error fault)
    (failed : (read tokens).outcome = .error fault) : Foreseen context stops atOnce before read tokens
  | refused (passed : List Token) {next : Token} (others : List Token) {cause : ReadingFault}
    (isAt : cause.IsAt context.settings next) (stopped : stops (before ++ passed) cause.isTooDeep)
    (start : cause.isTooDeep = true → passed ≠ [] ∨ atOnce = true)
    (alike : ∀ other, other ≠ [] → (cause.isTooDeep = false → other.head? = some next) →
      (read (passed ++ other)).outcome = .error ((Cause.reading cause).onLine (context.lineOf other))) :
    Foreseen context stops atOnce before read (passed ++ next :: others)

variable {context : Context} {stops itemStops : List Token → Bool → Prop} {atOnce : Bool} {before : List Token}
  {read first further : List Token → Reading (List Token)}

theorem Lasts.ne_nil (lasts : context.Lasts tokens) : tokens ≠ [] := by
  rcases lasts with ⟨token, member, _⟩ | ⟨some, _⟩
  · exact List.ne_nil_of_mem member
  · exact some

/-- Behind a token that closes no block there are more, or the scan stopped. -/
theorem Lasts.tail (lasts : context.Lasts (token :: rest)) (inside : token.lexeme ≠ .blockClose) :
    context.Lasts rest ∨ rest = [] ∧ ∃ fault, context.ending = .error fault := by
  rcases lasts with ⟨found, member, close⟩ | ⟨_, ended⟩
  · rcases List.mem_cons.mp member with rfl | later
    · exact (inside close).elim
    · exact .inl (.inl ⟨found, later, close⟩)
  · by_cases none : rest = []
    · exact .inr ⟨none, ended⟩
    · exact .inl (.inr ⟨none, ended⟩)

theorem advance_of_ended {fault : Fault} (ending : context.ending = .error fault) :
    context.advance [] = .fail fault := by
  simp only [advance, ending]

namespace Foreseen

theorem of_pure (lasts : context.Lasts tokens)
    (alike : ∀ other, other.head? = tokens.head? → (read other).outcome = .ok other) :
    context.Foreseen stops atOnce before read tokens := .taken [] lasts alike

theorem of_refuse {cause : ReadingFault} (isAt : cause.IsAt context.settings next)
    (stopped : stops before false) (grammatical : cause.isTooDeep = false)
    (alike : ∀ other, other.head? = some next →
      (read other).outcome = .error ((Cause.reading cause).onLine (context.lineOf other))) :
    context.Foreseen stops atOnce before read (next :: rest) := by
  refine .refused [] rest isAt ?_ (by simp [grammatical]) fun other _ head => alike other (head grammatical)
  rwa [List.append_nil, grammatical]

/-- Nothing is read where some token does not come next. -/
theorem of_absent {lexeme : Lexeme} (lasts : context.Lasts tokens)
    (absent : ¬ ∃ line rest, tokens = ⟨lexeme, line⟩ :: rest)
    (ends : ∀ other, (∀ line rest, other ≠ ⟨lexeme, line⟩ :: rest) → read other = pure other) :
    context.Foreseen stops atOnce before read tokens := by
  refine .of_pure lasts fun other head => ?_
  rw [ends other]
  · rfl
  · rintro line rest rfl
    obtain ⟨tail, whole⟩ := List.head?_eq_some_iff.mp head.symm
    exact absent ⟨line, tail, whole⟩

theorem weaken (foreseen : context.Foreseen stops false before read tokens) :
    context.Foreseen stops atOnce before read tokens := by
  cases foreseen with
  | taken word lasts alike => exact .taken word lasts alike
  | ended ending failed => exact .ended ending failed
  | refused passed others isAt stopped start alike =>
      exact .refused passed others isAt stopped (fun deep => .inl ((start deep).resolve_right nofun)) alike

/-- A reading that does what another one does before the same first token. -/
theorem congr (foreseen : context.Foreseen stops false before first tokens)
    (same : ∀ other, other.head? = tokens.head? → (read other).outcome = (first other).outcome) :
    context.Foreseen stops atOnce before read tokens := by
  cases foreseen with
  | taken word lasts alike =>
      refine .taken word lasts fun other head => ?_
      rw [same _ (by simp [List.head?_append, head]), alike other head]
  | ended ending failed => exact .ended ending ((same _ rfl).trans failed)
  | refused passed others isAt stopped start alike =>
      refine .refused passed others isAt stopped (fun deep => .inl ((start deep).resolve_right nofun)) ?_
      intro other some head
      refine (same _ ?_).trans (alike other some head)
      cases passed with
      | cons token passed => rfl
      | nil =>
          refine head (Bool.eq_false_iff.mpr fun deep => ?_)
          exact (start deep).elim (· rfl) nofun

/-- A token is passed. -/
theorem past (lasts : context.Lasts (token :: rest)) (inside : token.lexeme ≠ .blockClose)
    (moves : ∀ other, read (token :: other) = context.advance other >>= further)
    (later : context.Lasts rest → context.Foreseen stops true (before ++ [token]) further rest) :
    context.Foreseen stops atOnce before read (token :: rest) := by
  have goes : ∀ other, other ≠ [] → read (token :: other) = further other := by
    intro other some
    rw [moves, context.advance_of_ne_nil some]
    rfl
  rcases lasts.tail inside with lasts | ⟨rfl, fault, ending⟩
  · cases later lasts with
    | taken word left alike =>
        refine .taken (token :: word) left fun other head => ?_
        have some : word ++ other ≠ [] := by
          intro none
          rw [(List.append_eq_nil_iff.mp none).2] at head
          exact left.ne_nil (List.head?_eq_none_iff.mp head.symm)
        rw [List.cons_append, goes _ some, alike other head]
    | ended ending failed => exact .ended ending (by rw [goes _ lasts.ne_nil, failed])
    | refused passed others isAt stopped start alike =>
        refine .refused (token :: passed) others isAt ?_ (fun _ => .inl (List.cons_ne_nil _ _)) ?_
        · rwa [List.append_assoc] at stopped
        · intro other some head
          rw [List.cons_append, goes _ (by simp [some]), alike other some head]
  · refine .ended ending ?_
    rw [moves, advance_of_ended ending]
    rfl

/-- A reading of two parts is foreseen when they are. -/
theorem bind (reads : ∀ tokens, read tokens = first tokens >>= further)
    (left : context.Foreseen itemStops atOnce [] first tokens)
    (shift : ∀ passed isDeep, itemStops passed isDeep → stops (before ++ passed) isDeep)
    (right : ∀ word rest, tokens = word ++ rest → (first tokens).outcome = .ok rest → context.Lasts rest →
      context.Foreseen stops false (before ++ word) further rest) :
    context.Foreseen stops atOnce before read tokens := by
  have goes : ∀ {tokens rest}, (first tokens).outcome = .ok rest →
      (read tokens).outcome = (further rest).outcome := by
    intro tokens rest ok
    simp only [reads, Bind.bind, ok]
  have stays : ∀ {tokens fault}, (first tokens).outcome = .error fault →
      (read tokens).outcome = .error fault := by
    intro tokens fault failed
    simp only [reads, Bind.bind, failed]
  cases left with
  | ended ending failed => exact .ended ending (stays failed)
  | refused passed others isAt stopped start alike =>
      exact .refused passed others isAt (shift _ _ stopped) start fun other some head =>
        stays (alike other some head)
  | @taken word rest lasts alike =>
      cases right word rest rfl (alike rest rfl) lasts with
      | taken more left later =>
          rw [← List.append_assoc]
          refine .taken (word ++ more) left fun other head => ?_
          rw [List.append_assoc, goes (alike (more ++ other) ?_), later other head]
          simp [List.head?_append, head]
      | ended ending failed => exact .ended ending ((goes (alike rest rfl)).trans failed)
      | @refused passed next others cause isAt stopped start later =>
          rw [← List.append_assoc]
          rw [List.append_assoc] at stopped
          have started : cause.isTooDeep = true → passed ≠ [] := fun deep => (start deep).resolve_right nofun
          refine .refused (word ++ passed) others isAt stopped (fun deep => .inl (by simp [started deep])) ?_
          intro other some head
          rw [List.append_assoc, goes (alike (passed ++ other) ?_), later other some head]
          cases passed with
          | cons token passed => rfl
          | nil => exact head (Bool.eq_false_iff.mpr fun deep => started deep rfl)

/-- A mark has to come next, and the words could go on with it. -/
theorem expect {sign : Char} (reads : ∀ tokens, read tokens = context.expectMark sign tokens >>= further)
    (lasts : context.Lasts tokens) (stopped : stops before false)
    (right : ∀ line rest, tokens = ⟨.mark sign, line⟩ :: rest → context.Lasts rest →
      context.Foreseen stops true (before ++ [⟨.mark sign, line⟩]) further rest) :
    context.Foreseen stops atOnce before read tokens := by
  obtain ⟨next, rest, rfl⟩ := List.exists_cons_of_ne_nil lasts.ne_nil
  by_cases fits : next.lexeme = .mark sign
  · obtain ⟨lexeme, line⟩ := next
    obtain rfl : lexeme = .mark sign := fits
    refine past lasts (by simp) (fun other => ?_) fun lasts => right line rest rfl lasts
    simp only [reads, expectMark, ↓reduceIte]
  · refine of_refuse (.missing sign.toString) stopped rfl fun other head => ?_
    obtain ⟨tail, rfl⟩ := List.head?_eq_some_iff.mp head
    have refuses : context.expectMark sign (next :: tail) =
        context.refuse (.missing sign.toString (context.shown (next :: tail))) (next :: tail) := by
      unfold expectMark
      split
      · rename_i found line rest same
        cases same
        exact if_neg fun equal => fits (congrArg Lexeme.mark equal)
      · rfl
    rw [reads, refuses]
    rfl

end Foreseen

end Context

/-- Whether a production takes words of a category and what it does is foreseen. -/
structure Production.Foresees (context : Context) (category : Category) (levels : Nat) (atOnce : Bool)
    (production : Production) : Prop where
  words : production.ReadsWords context category levels
  foreseen : ∀ tokens, context.Lasts tokens →
    context.Foreseen (StopsAfter category.Begins levels) atOnce [] production.read tokens

theorem Production.ReadsWords.exists_derives {context : Context} {production : Production}
    (reads : production.ReadsWords context category levels)
    (ok : (production.read (word ++ rest)).outcome = .ok rest) : ∃ tree, Derives category levels word tree := by
  obtain ⟨_, _, found, tree, _, taken, derives, _⟩ := (reads [] _).outcome rest ok
  rw [List.append_cancel_right taken]
  exact ⟨tree, derives⟩

namespace Context

variable {context : Context} {stops : List Token → Bool → Prop} {atOnce : Bool} {before : List Token}
  {read further : List Token → Reading (List Token)} {production inner operand : Production}

namespace Foreseen

/-- A word is read, and what comes after it. -/
theorem bind_read (foresees : production.Foresees context category levels atOnce) (lasts : context.Lasts tokens)
    (reads : ∀ tokens, read tokens = production.read tokens >>= further)
    (shift : ∀ passed isDeep, StopsAfter category.Begins levels passed isDeep →
      stops (before ++ passed) isDeep)
    (right : ∀ word tree rest, tokens = word ++ rest → Derives category levels word tree →
      context.Lasts rest → context.Foreseen stops false (before ++ word) further rest) :
    context.Foreseen stops atOnce before read tokens := by
  refine bind reads (foresees.foreseen tokens lasts) shift fun word rest whole ok left => ?_
  subst whole
  obtain ⟨tree, derives⟩ := foresees.words.exists_derives ok
  exact right word tree rest rfl derives left

/-- An operator is passed, and a word is read. -/
theorem operatorStep (foresees : production.Foresees context category levels true)
    (lasts : context.Lasts (token :: rest)) (inside : token.lexeme ≠ .blockClose) (operator : Operator)
    (reads : ∀ other, read (token :: other) = context.operatorStep production operator other >>= further)
    (shift : ∀ passed isDeep, StopsAfter category.Begins levels passed isDeep →
      stops (before ++ [token] ++ passed) isDeep)
    (right : ∀ word tree left, rest = word ++ left → Derives category levels word tree →
      context.Lasts left → context.Foreseen stops false (before ++ [token] ++ word) further left) :
    context.Foreseen stops atOnce before read (token :: rest) := by
  let applied : List Token → Reading (List Token) := fun tokens =>
    Reading.emit (.apply operator) >>= fun _ => further tokens
  have operand : context.Lasts rest → context.Foreseen stops true (before ++ [token])
      (fun tokens => production.read tokens >>= applied) rest := fun lasts =>
    bind_read foresees lasts (fun _ => rfl) shift fun word tree rest whole derives left =>
      (right word tree rest whole derives left).congr fun _ _ => rfl
  refine past lasts inside (fun other => ?_) operand
  rw [reads]
  simp only [Context.operatorStep, bind_assoc, pure_bind, applied]

end Foreseen

/-! ## Sums and products -/

section Chain

variable {operators : Char → Option Operator} {chain item : Category} (groups : Groups operators chain item)
  (foresees : production.Foresees context item levels true)
include groups foresees

/-- What the rest of a chain does is foreseen: each item behind an operator extends the word that is derived as a
chain so far. -/
theorem chainRest_foreseen {left : List Token} {a : Expr} (derived : Derives chain levels left a)
    (lasts : context.Lasts tokens) :
    context.Foreseen (StopsAfter chain.Begins levels) false left (context.chainRest operators production)
      tokens := by
  induction size : tokens.length using Nat.strong_induction_on generalizing tokens left a with
  | _ size ih =>
  subst size
  by_cases goesOn : ∃ sign line rest operator,
      tokens = ⟨.operator sign, line⟩ :: rest ∧ operators sign = some operator
  · obtain ⟨sign, line, rest, operator, rfl, known⟩ := goesOn
    refine .operatorStep foresees lasts (by simp) operator (fun other => Continuation.chainRest_some known ..)
      (fun passed isDeep stops => ?_) ?_
    · refine stops.after 0 _ ?_ derived.begins
      rintro more tokens le ⟨rest, tree, derives⟩
      exact ⟨rest, _, by simpa using groups.joined known (derived.mono le) derives⟩
    · rintro word tree rest rfl derives remains
      have longer : Derives chain levels (left ++ ⟨.operator sign, line⟩ :: word) (.binary operator a tree) :=
        groups.joined known derived derives
      rw [List.append_cons] at longer
      exact ih rest.length (by simp only [List.length_cons, List.length_append]; omega) longer remains rfl
  · have ends : ∀ other, other.head? = tokens.head? →
        context.chainRest operators production other = pure other := by
      intro other head
      refine chainRest_of_none fun sign line rest same => ?_
      refine Option.eq_none_iff_forall_not_mem.mpr fun operator known => ?_
      rw [same] at head
      obtain ⟨tail, whole⟩ := List.head?_eq_some_iff.mp head.symm
      exact goesOn ⟨sign, line, tail, operator, whole, known⟩
    exact .of_pure lasts fun other head => by rw [ends other head]; rfl

/-- Operands joined by operators are read as each of them is. -/
theorem chain_foresees : (context.chain operators production).Foresees context chain levels true where
  words := chain_readsWords groups foresees.words
  foreseen tokens lasts := by
    refine .bind_read foresees lasts (fun _ => rfl)
      (fun _ _ stops => stops.wrap 0 fun _ _ _ => groups.single) ?_
    rintro word tree rest - derives left
    exact chainRest_foreseen groups foresees (groups.single derives) left

end Chain

theorem expression_foresees (foresees : operand.Foresees context .signed levels true) :
    (context.expression operand).Foresees context .expression levels true :=
  chain_foresees groups_additive (chain_foresees groups_multiplicative foresees)

/-! ## Operands -/

section Inner

variable (foresees : inner.Foresees context .expression levels true)
include foresees

/-- An expression in parentheses, after its opening one. -/
theorem parenthesised_foreseen {opening : Token} (lasts : context.Lasts (opening :: rest))
    (inside : opening.lexeme ≠ .blockClose)
    (reads : ∀ other, read (opening :: other) = context.parenthesised inner other >>= further)
    (begins : ∀ more tokens, levels ≤ more → Category.expression.Begins more tokens →
      category.Begins more (before ++ [opening] ++ tokens))
    (earlier : category.Begins levels before)
    (right : ∀ rest, context.Lasts rest → ∀ other, other.head? = rest.head? →
      (further other).outcome = .ok other) :
    context.Foreseen (StopsAfter category.Begins levels) atOnce before read (opening :: rest) := by
  let closed : List Token → Reading (List Token) := fun tokens => context.expectMark ')' tokens >>= further
  have word : context.Lasts rest → context.Foreseen (StopsAfter category.Begins levels) true
      (before ++ [opening]) (fun tokens => inner.read tokens >>= closed) rest := by
    intro lasts
    refine .bind_read foresees lasts (fun _ => rfl) (fun passed isDeep stops => ?_) ?_
    · exact stops.after 0 opening begins earlier
    · rintro word tree rest - derives left
      refine .expect (fun _ => rfl) left ?_ fun line rest _ left => .of_pure left (right rest left)
      exact (begins levels word le_rfl derives.begins).stops
  refine .past lasts inside (fun other => ?_) word
  rw [reads]
  simp only [parenthesised, bind_assoc, closed]

/-- A name alone, or with an argument in parentheses. -/
theorem argument_foreseen (name : String) (line : Nat) (lasts : context.Lasts tokens) :
    context.Foreseen (StopsAfter Category.primary.Begins levels) false [⟨.ident name, line⟩]
      (context.argument inner) tokens := by
  by_cases call : ∃ line rest, tokens = ⟨.mark '(', line⟩ :: rest
  · obtain ⟨opening, rest, rfl⟩ := call
    refine parenthesised_foreseen foresees lasts (by simp) (fun other => rfl) ?_ Derives.named.begins
      fun _ _ _ _ => rfl
    rintro more tokens - ⟨rest, tree, derives⟩
    exact ⟨rest ++ [⟨.mark ')', 0⟩], _, by simpa using Derives.application derives⟩
  · exact .of_absent lasts call fun other => argument_of_no_call

/-- What a primary operand does is foreseen: it is refused at a token that none of its kinds goes on with. -/
theorem primary_foresees : (context.primary inner).Foresees context .primary levels false where
  words := primary_readsWords foresees.words
  foreseen tokens lasts := by
    obtain ⟨⟨lexeme, line⟩, rest, rfl⟩ := List.exists_cons_of_ne_nil lasts.ne_nil
    have begins : Category.primary.Begins levels [] := ⟨[⟨.keyword "", 0⟩], _, .anonymous⟩
    have pushed : ∀ (instruction : Instruction), lexeme ≠ .blockClose →
        (∀ other, (context.primary inner).read (⟨lexeme, line⟩ :: other) =
          context.advance other >>= fun tokens => Reading.emit instruction >>= fun _ => pure tokens) →
        context.Foreseen (StopsAfter Category.primary.Begins levels) false []
          (context.primary inner).read (⟨lexeme, line⟩ :: rest) := fun _ inside reads =>
      .past lasts inside reads fun lasts => .of_pure lasts fun _ _ => rfl
    have unexpected : (∀ other, (context.primary inner).read (⟨lexeme, line⟩ :: other) =
          context.refuse (.unexpected (context.shown (⟨lexeme, line⟩ :: other))) (⟨lexeme, line⟩ :: other)) →
        context.Foreseen (StopsAfter Category.primary.Begins levels) false []
          (context.primary inner).read (⟨lexeme, line⟩ :: rest) := by
      refine fun refuses => .of_refuse .unexpected begins.stops rfl fun other head => ?_
      obtain ⟨tail, rfl⟩ := List.head?_eq_some_iff.mp head
      rw [refuses]
      rfl
    cases lexeme with
    | number value => exact pushed (.number value) (by simp) fun _ => rfl
    | keyword word => exact pushed .anonymous (by simp) fun _ => rfl
    | ident name =>
        refine .past lasts (by simp) (fun _ => rfl) fun lasts => .weaken ?_
        exact (argument_foreseen foresees name line lasts).congr fun _ _ => rfl
    | mark sign =>
        by_cases opening : sign = '('
        · subst opening
          refine parenthesised_foreseen foresees lasts (by simp)
            (fun other => (bind_pure (context.parenthesised inner other)).symm) ?_ begins fun _ _ _ _ => rfl
          rintro more tokens - ⟨rest, tree, derives⟩
          exact ⟨rest ++ [⟨.mark ')', 0⟩], _, by simpa using Derives.parenthesised derives⟩
        · exact unexpected fun other => primary_of_mark opening
    | _ => exact unexpected fun other => rfl

/-- The bracketed pairs after an operand. -/
theorem mediations_foreseen {left : List Token} {t : Expr} (derived : Derives .postfixed levels left t)
    (lasts : context.Lasts tokens) :
    context.Foreseen (StopsAfter Category.postfixed.Begins levels) false left (context.mediations inner)
      tokens := by
  induction size : tokens.length using Nat.strong_induction_on generalizing tokens left t with
  | _ size ih =>
  subst size
  by_cases goesOn : ∃ line rest, tokens = ⟨.mark '[', line⟩ :: rest
  · obtain ⟨opening, rest, rfl⟩ := goesOn
    let last : List Token → Reading (List Token) := fun tokens =>
      context.expectMark ']' tokens >>= fun tokens =>
        Reading.emit (.apply .mediation) >>= fun _ => context.mediations inner tokens
    let second : List Token → Reading (List Token) := fun tokens =>
      context.expectMark ',' tokens >>= fun tokens => inner.read tokens >>= last
    have moves : ∀ other, context.mediations inner (⟨.mark '[', opening⟩ :: other) =
        context.advance other >>= fun tokens => inner.read tokens >>= second := by
      intro other
      rw [Continuation.mediations_bracket]
      simp only [mediationStep, bind_assoc, pure_bind, second, last]
    refine .past lasts (by simp) moves fun lasts => ?_
    -- The first of the two expressions may be the second one as well.
    have opened : ∀ more tokens, levels ≤ more → Category.expression.Begins more tokens →
        Category.postfixed.Begins more (left ++ [⟨.mark '[', opening⟩] ++ tokens) := by
      rintro more tokens le ⟨rest, tree, derives⟩
      refine ⟨rest ++ ⟨.mark ',', 0⟩ :: (tokens ++ rest ++ [⟨.mark ']', 0⟩]), .mediation t tree tree, ?_⟩
      simpa using (derived.mono le).mediation derives derives
    refine .bind_read foresees lasts (fun _ => rfl) (fun passed isDeep stops => ?_) ?_
    · exact stops.after 0 _ opened derived.begins
    rintro word a rest rfl first lasts
    refine .expect (fun _ => rfl) lasts (opened levels word le_rfl first.begins).stops ?_
    rintro comma rest rfl lasts
    have separated : ∀ more tokens, levels ≤ more → Category.expression.Begins more tokens →
        Category.postfixed.Begins more
          (left ++ [⟨.mark '[', opening⟩] ++ word ++ [⟨.mark ',', comma⟩] ++ tokens) := by
      rintro more tokens le ⟨rest, tree, derives⟩
      refine ⟨rest ++ [⟨.mark ']', 0⟩], .mediation t a tree, ?_⟩
      simpa using (derived.mono le).mediation (first.mono le) derives
    refine .bind_read foresees lasts (fun _ => rfl) (fun passed isDeep stops => ?_) ?_
    · exact stops.after 0 _ separated (opened levels word le_rfl first.begins)
    rintro other b rest rfl second lasts
    refine .expect (fun _ => rfl) lasts (separated levels other le_rfl second.begins).stops ?_
    rintro closing rest rfl lasts
    have longer : Derives .postfixed levels (left ++ [⟨.mark '[', opening⟩] ++ word ++
        [⟨.mark ',', comma⟩] ++ other ++ [⟨.mark ']', closing⟩]) (.mediation t a b) := by
      simpa using derived.mediation first second
    refine .weaken ((ih rest.length ?_ longer lasts rfl).congr fun _ _ => rfl)
    simp only [List.length_cons, List.length_append]
    omega
  · exact .of_absent lasts goesOn fun other => mediations_of_no_bracket

theorem postfixed_foresees : (context.postfixed inner).Foresees context .postfixed levels false where
  words := postfixed_readsWords foresees.words
  foreseen tokens lasts := by
    refine .bind_read (primary_foresees foresees) lasts (fun _ => rfl)
      (fun _ _ stops => stops.wrap 0 fun _ _ _ => .ofPrimary) ?_
    rintro word tree rest - derives left
    exact mediations_foreseen foresees (.ofPrimary derives) left

end Inner

section Operand

variable (foresees : operand.Foresees context .signed levels true)
include foresees

/-- The exponent after the base of a power. -/
theorem exponent_foreseen {base : List Token} {a : Expr} (derived : Derives .postfixed levels base a)
    (lasts : context.Lasts tokens) :
    context.Foreseen (StopsAfter Category.power.Begins levels) false base (context.exponent operand) tokens := by
  by_cases goesOn : ∃ line rest, tokens = ⟨.operator '^', line⟩ :: rest
  · obtain ⟨line, rest, rfl⟩ := goesOn
    refine .operatorStep foresees lasts (by simp) .exponentiation (fun other => (bind_pure _).symm)
      (fun passed isDeep stops => ?_) fun word tree rest _ _ lasts => .of_pure lasts fun _ _ => rfl
    refine stops.after 0 _ ?_ (Derives.ofPostfixed derived).begins
    rintro more tokens le ⟨rest, tree, derives⟩
    exact ⟨rest, .binary .exponentiation a tree, by simpa using (derived.mono le).power derives⟩
  · exact .of_absent lasts goesOn fun other => exponent_of_no_power

theorem powered_foresees : (context.powered operand).Foresees context .power levels false where
  words := powered_readsWords foresees.words
  foreseen tokens lasts := by
    refine .bind_read (postfixed_foresees (expression_foresees foresees)) lasts (fun _ => rfl)
      (fun _ _ stops => stops.wrap 0 fun _ _ _ => .ofPostfixed) ?_
    rintro word tree rest - derives left
    exact exponent_foreseen foresees derives left

/-- A minus sign leads one level deeper, where nesting may be refused at the first token; what is refused behind the
sign stops the signed operand, too. -/
theorem signed_foresees : (context.signed operand).Foresees context .signed (levels + 1) true where
  words := signed_readsWords foresees.words
  foreseen tokens lasts := by
    obtain ⟨⟨lexeme, line⟩, rest, rfl⟩ := List.exists_cons_of_ne_nil lasts.ne_nil
    have nothing : Category.signed.Begins (levels + 1) [] := Category.signed.begins_nil levels
    by_cases minus : lexeme = .operator '-'
    · subst minus
      refine .operatorStep foresees lasts (by simp) .negation (fun other => (bind_pure _).symm)
        (fun passed isDeep stops => ?_) fun word tree rest _ _ lasts => .of_pure lasts fun _ _ => rfl
      refine stops.after 1 _ ?_ nothing
      rintro more tokens - ⟨rest, tree, derives⟩
      exact ⟨rest, .negation tree, .minus derives⟩
    by_cases plus : lexeme = .operator '+'
    · subst plus
      refine .past lasts (by simp) (fun _ => rfl) fun lasts => ?_
      refine .bind_read foresees lasts (fun _ => (bind_pure _).symm)
        (fun passed isDeep stops => ?_) fun word tree rest _ _ lasts => .of_pure lasts fun _ _ => rfl
      refine stops.after 1 _ ?_ nothing
      rintro more tokens - ⟨rest, tree, derives⟩
      exact ⟨rest, tree, .plus derives⟩
    · have power : context.Foreseen (StopsAfter Category.signed.Begins (levels + 1)) false []
          (context.powered operand).read (⟨lexeme, line⟩ :: rest) :=
        .bind_read (powered_foresees foresees) lasts (fun _ => (bind_pure _).symm)
          (fun _ _ stops => stops.wrap 1 fun _ _ _ => .ofPower)
          fun word tree rest _ _ lasts => .of_pure lasts fun _ _ => rfl
      refine power.congr fun other head => ?_
      obtain ⟨tail, rfl⟩ := List.head?_eq_some_iff.mp head
      unfold signed
      simp only
      split
      · rename_i same
        cases same
        exact (minus rfl).elim
      · rename_i same
        cases same
        exact (plus rfl).elim
      · rfl

end Operand

theorem tooDeep_foresees : context.tooDeep.Foresees context .signed 0 true where
  words := fun before tokens => refuse_builds rfl tokens
  foreseen tokens lasts := by
    obtain ⟨next, rest, rfl⟩ := List.exists_cons_of_ne_nil lasts.ne_nil
    have stops : StopsAfter Category.signed.Begins 0 [] true :=
      ⟨nofun, ⟨1, Nat.zero_le 1, Category.signed.begins_nil 0⟩, fun some => (some rfl).elim⟩
    exact .refused [] rest .tooDeep stops (fun _ => .inr rfl) fun other _ _ => rfl

theorem operand_foresees (context : Context) (levels : Nat) :
    (context.operand levels).Foresees context .signed levels true := by
  induction levels with
  | zero => exact tooDeep_foresees
  | succ levels ih => exact signed_foresees ih

/-- What reading an expression does is foreseen. -/
theorem production_foresees (context : Context) (levels : Nat) :
    (context.production levels .expression).Foresees context .expression levels true :=
  expression_foresees (operand_foresees context levels)

/-! ## Equations -/

section Side

variable {side : Production} (foresees : side.Foresees context .expression levels true)
include foresees

/-- What stops the right side of an equation, or comes as a second equals sign behind it, stops every equation with
this left side. -/
theorem rightSide_foreseen {left : List Token} {a : Expr} (derived : Derives .expression levels left a)
    {line : Nat} (lasts : context.Lasts (⟨.operator '=', line⟩ :: rest))
    (reads : ∀ other, read (⟨.operator '=', line⟩ :: other) = context.rightSide side other) :
    context.Foreseen (StopsAfter BeginsEquation levels) false left read (⟨.operator '=', line⟩ :: rest) := by
  have joined : ∀ more tokens, levels ≤ more → Category.expression.Begins more tokens →
      BeginsEquation more (left ++ [⟨.operator '=', line⟩] ++ tokens) := by
    rintro more tokens le ⟨rest, tree, derives⟩
    have whole : DerivesEquation more (left ++ ⟨.operator '=', line⟩ :: (tokens ++ rest)) _ :=
      .intro (derived.mono le) derives
    exact ⟨rest, _, by simpa using whole⟩
  refine .past lasts (by simp) reads fun lasts => ?_
  refine .bind_read foresees lasts (fun _ => rfl) (fun passed isDeep stops => ?_) ?_
  · exact stops.after 0 _ joined derived.begins.equation
  rintro word tree rest rfl second lasts
  by_cases again : ∃ line tail, rest = ⟨.operator '=', line⟩ :: tail
  · obtain ⟨position, tail, rfl⟩ := again
    refine .of_refuse (.secondEquals rfl) (joined levels word le_rfl second.begins).stops rfl
      fun other head => ?_
    obtain ⟨others, rfl⟩ := List.head?_eq_some_iff.mp head
    rfl
  · refine .of_pure lasts fun other head => ?_
    split
    · obtain ⟨others, whole⟩ := List.head?_eq_some_iff.mp head.symm
      exact (again ⟨_, others, whole⟩).elim
    · rfl

/-- What reading an equation does is foreseen. -/
theorem equation_foreseen (lasts : context.Lasts tokens) :
    context.Foreseen (StopsAfter BeginsEquation levels) true [] (context.equation side) tokens := by
  refine .bind_read foresees lasts (fun _ => rfl) (fun passed isDeep stops => ?_) ?_
  · exact stops.mono 0 fun _ _ _ begins => begins.equation
  rintro word tree rest rfl derives lasts
  by_cases equals : ∃ line tail, rest = ⟨.operator '=', line⟩ :: tail
  · obtain ⟨position, tail, rfl⟩ := equals
    exact rightSide_foreseen foresees derives lasts fun other => rfl
  · obtain ⟨next, tail, rfl⟩ := List.exists_cons_of_ne_nil lasts.ne_nil
    refine .of_refuse (.missing "=") derives.begins.equation.stops rfl fun other head => ?_
    obtain ⟨others, rfl⟩ := List.head?_eq_some_iff.mp head
    split
    · rename_i same
      cases same
      exact (equals ⟨_, tail, rfl⟩).elim
    · rfl

end Side

end Context

end EquationText
