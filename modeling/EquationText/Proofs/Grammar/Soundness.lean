import Mathlib.Data.List.Basic
import EquationText.Grammar.Document
import EquationText.Proofs.Expr.Program

/-! # What a reading takes for a word is one

A production of the reader that succeeds has taken a word of its category, the longest there is, and has
found the program of its tree (`EquationText.Context.expression_readsWords`). One that fails has found the
programs of some trees, and ends with the fault of the scan or with one of the grammar.
-/

namespace EquationText

/-! ## Where words end -/

namespace Category

/-- The tokens that carry a word of a category on. -/
def continuations : Category → List Lexeme
  | primary => []
  | postfixed => [.mark '[']
  | power | signed => [.mark '[', .operator '^']
  | term => [.mark '[', .operator '^', .operator '*', .operator '/']
  | expression =>
    [.mark '[', .operator '^', .operator '*', .operator '/', .operator '+', .operator '-']

/-- Whether a token carries a word of a category on: one that does so for the category, or the
parenthesis after which a name at the end of the word is that of a function. -/
def Continues (category : Category) (word : List Token) (next : Token) : Prop :=
  next.lexeme ∈ category.continuations ∨
    next.lexeme = .mark '(' ∧ ∃ name line, word.getLast? = some ⟨.ident name, line⟩

/-- Whether a word of a category ends where some tokens begin. -/
def EndsBefore (category : Category) (word rest : List Token) : Prop :=
  ∀ next ∈ rest.head?, ¬ category.Continues word next

variable {category other : Category} {left word rest : List Token}

/-- Where a word ends depends on its end. -/
theorem endsBefore_append_iff (nonempty : word ≠ []) :
    category.EndsBefore (left ++ word) rest ↔ category.EndsBefore word rest := by
  simp only [EndsBefore, Continues, List.getLast?_append_of_ne_nil left nonempty]

/-- A word is carried on by more tokens as its last part is. -/
theorem endsBefore_cons_iff (left : List Token) {token : Token} (nonempty : word ≠ []) :
    category.EndsBefore (left ++ token :: word) rest ↔ category.EndsBefore word rest := by
  rw [List.append_cons]
  exact endsBefore_append_iff nonempty

/-- A primary word that ends with a mark is whole. -/
theorem EndsBefore.of_mark (left : List Token) {sign : Char} {line : Nat} :
    primary.EndsBefore (left ++ [⟨.mark sign, line⟩]) rest := by
  rintro next - (continued | ⟨_, name, position, last⟩)
  · cases continued
  · rw [List.getLast?_append_of_ne_nil left (List.cons_ne_nil _ _)] at last
    cases last

theorem EndsBefore.mono (ends : category.EndsBefore word rest)
    (fewer : other.continuations ⊆ category.continuations) : other.EndsBefore word rest := by
  rintro next head (continued | called)
  · exact ends next head (.inl (fewer continued))
  · exact ends next head (.inr called)

/-- A word ends before a token that carries no word of the category on and is no parenthesis. -/
theorem endsBefore_cons {next : Token} (other : next.lexeme ∉ category.continuations)
    (noCall : next.lexeme ≠ .mark '(') : category.EndsBefore word (next :: rest) := by
  intro found head
  cases head
  rintro (continued | ⟨called, _⟩)
  · exact other continued
  · exact noCall called

/-- A word of a category that has a few more continuations than another one. -/
theorem EndsBefore.extend (ends : category.EndsBefore word rest)
    (fresh : ∀ next ∈ rest.head?, next.lexeme ∈ other.continuations →
      next.lexeme ∈ category.continuations) : other.EndsBefore word rest := by
  rintro next head (continued | called)
  · exact ends next head (.inl (fresh next head continued))
  · exact ends next head (.inr called)

end Category

/-! ## Programs of trees -/

/-- Whether a program adds to the programs of some trees what the programs of other trees have more. -/
def Assembles (before : List Expr) (program : List Instruction) (after : List Expr) : Prop :=
  Expr.programs after = Expr.programs before ++ program ∧
    ((∀ tree ∈ before, tree.isWellFormed = true) → ∀ tree ∈ after, tree.isWellFormed = true)

namespace Assembles

variable {before middle after : List Expr} {first second : List Instruction}

theorem refl (trees : List Expr) : Assembles trees [] trees :=
  ⟨(List.append_nil _).symm, fun wellFormed => wellFormed⟩

theorem trans (left : Assembles before first middle) (right : Assembles middle second after) :
    Assembles before (first ++ second) after :=
  ⟨by rw [right.1, left.1, List.append_assoc], fun wellFormed => right.2 (left.2 wellFormed)⟩

/-- An instruction that pushes a leaf. -/
theorem push {tree : Expr} {instruction : Instruction} (single : tree.program = [instruction])
    (wellFormed : tree.isWellFormed = true) (before : List Expr) :
    Assembles before [instruction] (before ++ [tree]) := by
  refine ⟨by rw [Expr.programs_append, Expr.programs_singleton, single], fun all found member => ?_⟩
  rcases List.mem_append.mp member with old | new
  · exact all found old
  · rw [List.mem_singleton.mp new]
    exact wellFormed

/-- An instruction that puts operands together. -/
theorem apply {operands : List Expr} {tree : Expr} {operator : Operator}
    (program : tree.program = Expr.programs operands ++ [.apply operator])
    (wellFormed : (∀ operand ∈ operands, operand.isWellFormed = true) → tree.isWellFormed = true)
    (before : List Expr) :
    Assembles (before ++ operands) [.apply operator] (before ++ [tree]) := by
  refine ⟨?_, fun all found member => ?_⟩
  · rw [Expr.programs_append, Expr.programs_append, Expr.programs_singleton, program,
      List.append_assoc]
  · rcases List.mem_append.mp member with old | new
    · exact all found (List.mem_append_left _ old)
    · rw [List.mem_singleton.mp new]
      exact wellFormed fun operand inside => all operand (List.mem_append_right _ inside)

theorem negation (operand : Expr) (before : List Expr) :
    Assembles (before ++ [operand]) [.apply .negation] (before ++ [.negation operand]) :=
  apply (by simp [Expr.program]) (by simp [Expr.isWellFormed]) before

theorem binary {operator : Operator} (infixed : operator.isInfixed = true) (left right : Expr)
    (before : List Expr) :
    Assembles (before ++ [left] ++ [right]) [.apply operator]
      (before ++ [.binary operator left right]) := by
  rw [List.append_assoc]
  exact apply (by simp [Expr.program, Expr.programs])
    (by simp +contextual [Expr.isWellFormed, infixed]) before

theorem application (callee argument : Expr) (before : List Expr) :
    Assembles (before ++ [callee] ++ [argument]) [.apply .application]
      (before ++ [.application callee argument]) := by
  rw [List.append_assoc]
  exact apply (by simp [Expr.program, Expr.programs])
    (by simp +contextual [Expr.isWellFormed]) before

theorem mediation (condition consequent alternative : Expr) (before : List Expr) :
    Assembles (before ++ [condition] ++ [consequent] ++ [alternative]) [.apply .mediation]
      (before ++ [.mediation condition consequent alternative]) := by
  rw [List.append_assoc, List.append_assoc]
  exact apply (by simp [Expr.program, Expr.programs])
    (by simp +contextual [Expr.isWellFormed]) before

end Assembles

/-! ## Readings -/

/-- The faults of the grammar. -/
def ReadingFault.isGrammatical : ReadingFault → Bool
  | unexpected _ | missing _ _ | secondEquals | tooDeep _ => true
  | strayCharacter _ | unterminatedBlock | missingCommandName | statementOpen _
  | malformedStatement => false

/-- Whether a reading may end with a fault: that of the scan, or one of the grammar. -/
def Context.Refuses (context : Context) (fault : Fault) : Prop :=
  context.ending = .error fault ∨
    ∃ (cause : ReadingFault) (line : Nat),
      fault = (Cause.reading cause).onLine line ∧ cause.isGrammatical = true

/-- Whether a reading that starts with the programs of some trees ends with those of trees that have a
property together with its result, or is refused with those of any trees. -/
structure Reading.Builds {α : Type} (context : Context) (before : List Expr)
    (result : List Expr → α → Prop) (reading : Reading α) : Prop where
  outcome : ∀ a, reading.outcome = .ok a →
    ∃ after, Assembles before reading.program after ∧ result after a
  refusal : ∀ fault, reading.outcome = .error fault →
    context.Refuses fault ∧ ∃ after, Assembles before reading.program after

variable {context : Context} {before : List Expr} {levels : Nat} {tokens rest : List Token}

namespace Reading.Builds

variable {α β : Type} {result : List Expr → α → Prop} {next : List Expr → β → Prop}

theorem of_pure {a : α} (holds : result before a) :
    Builds context before result (pure a : Reading α) where
  outcome b ok := by
    cases ok
    exact ⟨before, .refl before, holds⟩
  refusal fault error := by cases error

theorem of_fail {fault : Fault} (refuses : context.Refuses fault) :
    Builds context before result (fail fault) where
  outcome a ok := by cases ok
  refusal found error := by
    cases error
    exact ⟨refuses, before, .refl before⟩

theorem of_emit {instruction : Instruction} {after : List Expr}
    (assembles : Assembles before [instruction] after) :
    Builds context before (fun last _ => last = after) (emit instruction) where
  outcome _ _ := ⟨after, assembles, rfl⟩
  refusal fault error := by cases error

theorem mono {weaker : List Expr → α → Prop} {reading : Reading α}
    (builds : Builds context before result reading)
    (implies : ∀ after a, result after a → weaker after a) :
    Builds context before weaker reading where
  outcome a ok := by
    obtain ⟨after, assembles, holds⟩ := builds.outcome a ok
    exact ⟨after, assembles, implies after a holds⟩
  refusal := builds.refusal

section Sequence

variable {first : Reading α} (left : Builds context before result first)
include left

/-- A reading that is refused in its first step. -/
theorem stop {fault : Fault} (error : first.outcome = .error fault) :
    Builds context before next (⟨first.program, .error fault⟩ : Reading β) where
  outcome b ok := by cases ok
  refusal found same := by
    cases same
    exact left.refusal fault error

/-- A reading that goes on after its first step. -/
theorem step {a : α} {more : Reading β} (ok : first.outcome = .ok a)
    (right : ∀ after, result after a → Builds context after next more) :
    Builds context before next (⟨first.program ++ more.program, more.outcome⟩ : Reading β) where
  outcome b found := by
    obtain ⟨middle, earlier, holds⟩ := left.outcome a ok
    obtain ⟨after, later, last⟩ := (right middle holds).outcome b found
    exact ⟨after, earlier.trans later, last⟩
  refusal fault found := by
    obtain ⟨middle, earlier, holds⟩ := left.outcome a ok
    obtain ⟨refuses, after, later⟩ := (right middle holds).refusal fault found
    exact ⟨refuses, after, earlier.trans later⟩

/-- A reading goes on from the values that the one before it has built. -/
theorem bind {more : α → Reading β}
    (right : ∀ after a, result after a → Builds context after next (more a)) :
    Builds context before next (first >>= more) := by
  cases found : first.outcome with
  | error fault =>
      have same : (first >>= more) = ⟨first.program, .error fault⟩ := by
        simp only [Bind.bind, found]
      rw [same]
      exact left.stop found
  | ok a =>
      have same : (first >>= more) = ⟨first.program ++ (more a).program, (more a).outcome⟩ := by
        simp only [Bind.bind, found]
      rw [same]
      exact left.step found fun after holds => right after a holds

end Sequence

end Reading.Builds

/-- Whether a production takes words of a category, and adds their trees to any trees. -/
def Production.ReadsWords (context : Context) (category : Category) (levels : Nat)
    (production : Production) : Prop :=
  ∀ before tokens, (production.read tokens).Builds context before fun after rest =>
    ∃ word tree, after = before ++ [tree] ∧ tokens = word ++ rest ∧
      Derives category levels word tree ∧ category.EndsBefore word rest

namespace Context

/-! ## Steps -/

theorem refuse_builds {α : Type} {result : List Expr → α → Prop} {fault : ReadingFault}
    (grammatical : fault.isGrammatical = true) (tokens : List Token) :
    (context.refuse fault tokens).Builds context before result :=
  .of_fail (.inr ⟨fault, _, rfl, grammatical⟩)

theorem advance_builds (before : List Expr) (rest : List Token) :
    (context.advance rest).Builds context before fun after remaining =>
      after = before ∧ remaining = rest := by
  unfold advance
  split
  · rename_i ended
    exact .of_fail (.inl ended)
  · exact .of_pure ⟨rfl, rfl⟩

/-- A mark that is expected builds nothing, and is the next token. -/
theorem expectMark_builds (sign : Char) (before : List Expr) (tokens : List Token) :
    (context.expectMark sign tokens).Builds context before fun after rest =>
      after = before ∧ ∃ line, tokens = ⟨.mark sign, line⟩ :: rest := by
  unfold expectMark
  split
  · rename_i found line rest
    split
    · rename_i same
      refine (advance_builds before rest).mono ?_
      rintro after remaining ⟨rfl, rfl⟩
      exact ⟨rfl, line, by rw [same]⟩
    · exact refuse_builds rfl _
  · exact refuse_builds rfl _

/-- An operator is applied to the word after it and to what was there before. -/
theorem operatorStep_builds {item : Production} {category : Category} {operator : Operator}
    {earlier : List Expr} {combine : Expr → Expr} (reads : item.ReadsWords context category levels)
    (combines : ∀ b, Assembles (before ++ [b]) [.apply operator] (earlier ++ [combine b]))
    (rest : List Token) :
    (context.operatorStep item operator rest).Builds context before fun after remaining =>
      ∃ word b, after = earlier ++ [combine b] ∧ rest = word ++ remaining ∧
        Derives category levels word b ∧ category.EndsBefore word remaining := by
  apply Reading.Builds.bind (advance_builds before rest)
  rintro _ _ ⟨rfl, rfl⟩
  apply Reading.Builds.bind (reads _ _)
  rintro _ remaining ⟨word, b, rfl, taken, derives, ends⟩
  refine .bind (.of_emit (combines b)) ?_
  rintro _ _ rfl
  exact .of_pure ⟨word, b, rfl, taken, derives, ends⟩

/-! ## Sums and products -/

/-- How the words of one category are joined by some operators to words of another one. -/
structure Groups (operators : Char → Option Operator) (chain item : Category) : Prop where
  single : ∀ {levels word tree}, Derives item levels word tree → Derives chain levels word tree
  joined : ∀ {levels left right a b sign operator line}, operators sign = some operator →
    Derives chain levels left a → Derives item levels right b →
    Derives chain levels (left ++ ⟨.operator sign, line⟩ :: right) (.binary operator a b)
  isInfixed : ∀ {sign operator}, operators sign = some operator → operator.isInfixed = true
  continues : ∀ lexeme ∈ chain.continuations, lexeme ∈ item.continuations ∨
    ∃ sign operator, lexeme = .operator sign ∧ operators sign = some operator

/-- A joined word ends where its last part does, before a token that is none of the operators. -/
theorem Groups.ends {operators : Char → Option Operator} {chain item : Category}
    (groups : Groups operators chain item) {word : List Token} (ends : item.EndsBefore word rest)
    (other : ∀ sign line tail, rest = ⟨.operator sign, line⟩ :: tail → operators sign = none) :
    chain.EndsBefore word rest := by
  refine ends.extend fun next head continued => ?_
  obtain ⟨tail, rfl⟩ := List.head?_eq_some_iff.mp head
  obtain ⟨lexeme, line⟩ := next
  rcases groups.continues lexeme continued with inside | ⟨sign, operator, rfl, known⟩
  · exact inside
  · cases known.symm.trans (other sign line tail rfl)

/-- Sums and differences group terms from the left. -/
theorem groups_additive : Groups additive .expression .term where
  single := .ofTerm
  joined := by
    intro levels left right a b sign operator line known first second
    unfold additive at known
    split at known
    · cases known
      exact .sum first second
    · cases known
      exact .difference first second
    · cases known
  isInfixed := by
    intro sign operator known
    unfold additive at known
    split at known <;> cases known <;> rfl
  continues := by simp [Category.continuations, additive]

/-- Products and quotients group signed operands from the left. -/
theorem groups_multiplicative : Groups multiplicative .term .signed where
  single := .ofSigned
  joined := by
    intro levels left right a b sign operator line known first second
    unfold multiplicative at known
    split at known
    · cases known
      exact .product first second
    · cases known
      exact .quotient first second
    · cases known
  isInfixed := by
    intro sign operator known
    unfold multiplicative at known
    split at known <;> cases known <;> rfl
  continues := by simp [Category.continuations, multiplicative]

section Chain

variable {operators : Char → Option Operator} {chain item : Category} {production : Production}
  (groups : Groups operators chain item) (reads : production.ReadsWords context item levels)
include groups reads

/-- The operators and operands after a word make it longer. -/
theorem chainRest_builds {left : List Token} {a : Expr} (derived : Derives chain levels left a)
    (ends : item.EndsBefore left tokens) :
    (context.chainRest operators production tokens).Builds context (before ++ [a])
      fun after rest => ∃ word tree, after = before ++ [tree] ∧ tokens = word ++ rest ∧
        Derives chain levels (left ++ word) tree ∧ chain.EndsBefore (left ++ word) rest := by
  fun_induction chainRest context operators production tokens generalizing left a with
  | case1 sign line rest unknown =>
      refine .of_pure ⟨[], a, rfl, rfl, by rwa [List.append_nil], ?_⟩
      rw [List.append_nil]
      refine groups.ends ends fun other found tail same => ?_
      cases same
      exact unknown
  | case2 sign line rest operator known step fault =>
      rename_i failed
      exact (operatorStep_builds reads
        (fun b => Assembles.binary (groups.isInfixed known) a b before) rest).stop failed
  | case3 sign line rest operator known step remaining stepOk =>
      rename_i more ih
      have first := operatorStep_builds reads
        (fun b => Assembles.binary (groups.isInfixed known) a b before) rest
      refine first.step stepOk ?_
      rintro _ ⟨word, b, rfl, rfl, second, wordEnds⟩
      have longer : Derives chain levels (left ++ ⟨.operator sign, line⟩ :: word) _ :=
        groups.joined known derived second
      have longerEnds : item.EndsBefore (left ++ ⟨.operator sign, line⟩ :: word) remaining :=
        (Category.endsBefore_cons_iff _ second.ne_nil).mpr wordEnds
      refine (ih longer longerEnds).mono ?_
      rintro after last ⟨others, tree, rfl, rfl, whole, wholeEnds⟩
      refine ⟨⟨.operator sign, line⟩ :: (word ++ others), tree, rfl, by simp, ?_, ?_⟩
      · simpa using whole
      · simpa using wholeEnds
  | case4 tokens other =>
      refine .of_pure ⟨[], a, rfl, rfl, by rwa [List.append_nil], ?_⟩
      rw [List.append_nil]
      exact groups.ends ends fun sign line tail same => (other sign line tail same).elim

theorem chain_readsWords : (context.chain operators production).ReadsWords context chain levels := by
  intro before tokens
  apply Reading.Builds.bind (reads before tokens)
  rintro _ rest ⟨word, tree, rfl, rfl, derived, ends⟩
  refine (chainRest_builds groups reads (groups.single derived) ends).mono ?_
  rintro _ last ⟨others, whole, rfl, rfl, derives, wholeEnds⟩
  exact ⟨word ++ others, whole, rfl, (List.append_assoc ..).symm, derives, wholeEnds⟩

end Chain

theorem expression_readsWords {operand : Production}
    (reads : operand.ReadsWords context .signed levels) :
    (context.expression operand).ReadsWords context .expression levels :=
  chain_readsWords groups_additive (chain_readsWords groups_multiplicative reads)

/-! ## Operands -/

section Inner

variable {inner : Production} (reads : inner.ReadsWords context .expression levels)
include reads

theorem parenthesised_builds (before : List Expr) (rest : List Token) :
    (context.parenthesised inner rest).Builds context before fun after remaining =>
      ∃ word tree closing, after = before ++ [tree] ∧
        rest = word ++ ⟨.mark ')', closing⟩ :: remaining ∧
        Derives .expression levels word tree := by
  apply Reading.Builds.bind (advance_builds before rest)
  rintro _ _ ⟨rfl, rfl⟩
  apply Reading.Builds.bind (reads _ _)
  rintro _ middle ⟨word, tree, rfl, taken, derives, _⟩
  refine (expectMark_builds ')' _ middle).mono ?_
  rintro _ remaining ⟨rfl, closing, rfl⟩
  exact ⟨word, tree, closing, rfl, taken, derives⟩

/-- A name alone, or with an argument in parentheses. -/
theorem argument_builds (name : String) (line : Nat) (before : List Expr) (tokens : List Token) :
    (context.argument inner tokens).Builds context (before ++ [.named name]) fun after rest =>
      ∃ word tree, after = before ++ [tree] ∧ tokens = word ++ rest ∧
        Derives .primary levels (⟨.ident name, line⟩ :: word) tree ∧
        Category.primary.EndsBefore (⟨.ident name, line⟩ :: word) rest := by
  unfold argument
  split
  · rename_i opening rest
    apply Reading.Builds.bind (parenthesised_builds reads _ rest)
    rintro _ remaining ⟨word, tree, closing, rfl, rfl, derives⟩
    refine .bind (.of_emit (Assembles.application (.named name) tree before)) ?_
    rintro _ _ rfl
    refine .of_pure ⟨⟨.mark '(', opening⟩ :: (word ++ [⟨.mark ')', closing⟩]), _, rfl, by simp,
      .application derives, ?_⟩
    exact .of_mark (⟨.ident name, line⟩ :: ⟨.mark '(', opening⟩ :: word)
  · rename_i other
    refine .of_pure ⟨[], _, rfl, rfl, .named, ?_⟩
    rintro ⟨lexeme, position⟩ head (continued | ⟨called, _⟩)
    · cases continued
    · obtain ⟨tail, rfl⟩ := List.head?_eq_some_iff.mp head
      cases called
      exact other position tail rfl

omit reads in
/-- An operand of one token. -/
theorem pushed_builds {tree : Expr} {instruction : Instruction} {token : Token}
    (single : tree.program = [instruction]) (wellFormed : tree.isWellFormed = true)
    (derives : Derives .primary levels [token] tree)
    (noName : ∀ name, token.lexeme ≠ .ident name) (before : List Expr) (rest : List Token) :
    (context.advance rest >>= fun tokens => Reading.emit instruction >>= fun _ =>
      pure tokens : Reading (List Token)).Builds context before fun after remaining =>
        ∃ word tree, after = before ++ [tree] ∧ token :: rest = word ++ remaining ∧
          Derives .primary levels word tree ∧ Category.primary.EndsBefore word remaining := by
  apply Reading.Builds.bind (advance_builds before rest)
  rintro _ _ ⟨rfl, rfl⟩
  refine .bind (.of_emit (Assembles.push single wellFormed _)) ?_
  rintro _ _ rfl
  refine .of_pure ⟨[token], tree, rfl, rfl, derives, ?_⟩
  rintro next - (continued | ⟨_, name, line, last⟩)
  · cases continued
  · cases last
    exact noName name rfl

/-- A primary operand builds the tree that its tokens are derived as. -/
theorem primary_readsWords : (context.primary inner).ReadsWords context .primary levels := by
  intro before tokens
  unfold primary
  simp only
  split
  · rename_i value line rest
    exact pushed_builds rfl rfl .number (by simp) before rest
  · rename_i word line rest
    exact pushed_builds rfl rfl .anonymous (by simp) before rest
  · rename_i name line rest
    apply Reading.Builds.bind (advance_builds before rest)
    rintro before _ ⟨rfl, rfl⟩
    have pushed : Assembles before [.named name] (before ++ [.named name]) := .push rfl rfl before
    refine .bind (.of_emit pushed) ?_
    rintro _ _ rfl
    refine (argument_builds reads name line _ _).mono ?_
    rintro _ remaining ⟨word, tree, rfl, rfl, derives, ends⟩
    exact ⟨⟨.ident name, line⟩ :: word, tree, rfl, rfl, derives, ends⟩
  · rename_i opening rest
    refine (parenthesised_builds reads before rest).mono ?_
    rintro _ remaining ⟨word, tree, closing, rfl, rfl, derives⟩
    refine ⟨⟨.mark '(', opening⟩ :: (word ++ [⟨.mark ')', closing⟩]), tree, rfl, by simp,
      .parenthesised derives, ?_⟩
    exact .of_mark (⟨.mark '(', opening⟩ :: word)
  · exact refuse_builds rfl _

/-- A mediation is built from the operand in front of it and its two sides. -/
theorem mediationStep_builds (scale : Expr) (before : List Expr) (rest : List Token) :
    (context.mediationStep inner rest).Builds context (before ++ [scale]) fun after remaining =>
      ∃ first a comma second b closing, after = before ++ [.mediation scale a b] ∧
        rest = first ++ ⟨.mark ',', comma⟩ :: (second ++ ⟨.mark ']', closing⟩ :: remaining) ∧
        Derives .expression levels first a ∧ Derives .expression levels second b := by
  apply Reading.Builds.bind (advance_builds _ rest)
  rintro _ _ ⟨rfl, rfl⟩
  apply Reading.Builds.bind (reads _ _)
  rintro _ afterFirst ⟨first, a, rfl, firstTaken, firstDerives, _⟩
  apply Reading.Builds.bind (expectMark_builds ',' _ afterFirst)
  rintro _ afterComma ⟨rfl, comma, rfl⟩
  apply Reading.Builds.bind (reads _ _)
  rintro _ afterSecond ⟨second, b, rfl, rfl, secondDerives, _⟩
  apply Reading.Builds.bind (expectMark_builds ']' _ afterSecond)
  rintro _ remaining ⟨rfl, closing, rfl⟩
  refine .bind (.of_emit (Assembles.mediation scale a b before)) ?_
  rintro _ _ rfl
  exact .of_pure ⟨first, a, comma, second, b, closing, rfl, firstTaken, firstDerives, secondDerives⟩

/-- The bracketed pairs after an operand make it longer. -/
theorem mediations_builds {left : List Token} {a : Expr}
    (derived : Derives .postfixed levels left a)
    (ends : Category.primary.EndsBefore left tokens) :
    (context.mediations inner tokens).Builds context (before ++ [a])
      fun after rest => ∃ word tree, after = before ++ [tree] ∧ tokens = word ++ rest ∧
        Derives .postfixed levels (left ++ word) tree ∧
        Category.postfixed.EndsBefore (left ++ word) rest := by
  fun_induction mediations context inner tokens generalizing left a with
  | case1 line rest step fault =>
      rename_i failed
      exact (mediationStep_builds reads a before rest).stop failed
  | case2 opening rest step remaining stepOk =>
      rename_i more ih
      refine (mediationStep_builds reads a before rest).step stepOk ?_
      rintro _ ⟨first, b, comma, second, c, closing, rfl, rfl, firstDerives, secondDerives⟩
      have longer : Derives .postfixed levels (left ++ ⟨.mark '[', opening⟩ ::
          (first ++ ⟨.mark ',', comma⟩ :: (second ++ [⟨.mark ']', closing⟩]))) (.mediation a b c) :=
        .mediation derived firstDerives secondDerives
      have longerEnds : Category.primary.EndsBefore (left ++ ⟨.mark '[', opening⟩ ::
          (first ++ ⟨.mark ',', comma⟩ :: (second ++ [⟨.mark ']', closing⟩]))) remaining := by
        rw [Category.endsBefore_cons_iff _ (by simp), Category.endsBefore_cons_iff _ (by simp)]
        exact .of_mark second
      refine (ih longer longerEnds).mono ?_
      rintro _ last ⟨others, tree, rfl, rfl, whole, wholeEnds⟩
      refine ⟨⟨.mark '[', opening⟩ :: (first ++ ⟨.mark ',', comma⟩ ::
        (second ++ ⟨.mark ']', closing⟩ :: others)), tree, rfl, by simp, ?_, ?_⟩
      · simpa using whole
      · simpa using wholeEnds
  | case3 tokens other =>
      refine .of_pure ⟨[], a, rfl, rfl, by rwa [List.append_nil], ?_⟩
      rw [List.append_nil]
      refine ends.extend fun next head continued => ?_
      obtain ⟨tail, rfl⟩ := List.head?_eq_some_iff.mp head
      obtain ⟨lexeme, line⟩ := next
      cases List.mem_singleton.mp continued
      exact (other line tail rfl).elim

theorem postfixed_readsWords : (context.postfixed inner).ReadsWords context .postfixed levels := by
  intro before tokens
  apply Reading.Builds.bind (primary_readsWords reads before tokens)
  rintro _ rest ⟨word, tree, rfl, rfl, derived, ends⟩
  refine (mediations_builds reads (.ofPrimary derived) ends).mono ?_
  rintro _ last ⟨others, whole, rfl, rfl, derives, wholeEnds⟩
  exact ⟨word ++ others, whole, rfl, (List.append_assoc ..).symm, derives, wholeEnds⟩

end Inner

section Operand

variable {operand : Production} (reads : operand.ReadsWords context .signed levels)
include reads

/-- A power is built from its base and an exponent that is a signed operand; without the sign of powers it is the
base. -/
theorem powered_readsWords : (context.powered operand).ReadsWords context .power levels := by
  intro before tokens
  apply Reading.Builds.bind (postfixed_readsWords (expression_readsWords reads) before tokens)
  rintro _ rest ⟨word, tree, rfl, rfl, derived, ends⟩
  unfold exponent
  split
  · rename_i line tail
    refine (operatorStep_builds reads (fun b => Assembles.binary rfl tree b before) tail).mono ?_
    rintro _ remaining ⟨power, b, rfl, rfl, derives, powerEnds⟩
    exact ⟨word ++ ⟨.operator '^', line⟩ :: power, _, rfl, by simp, .power derived derives,
      (Category.endsBefore_cons_iff _ derives.ne_nil).mpr powerEnds⟩
  · rename_i other
    refine .of_pure ⟨word, tree, rfl, rfl, .ofPostfixed derived, ends.extend ?_⟩
    intro next head continued
    obtain ⟨tail, rfl⟩ := List.head?_eq_some_iff.mp head
    obtain ⟨lexeme, line⟩ := next
    simp only [Category.continuations, List.mem_cons, List.not_mem_nil, or_false] at continued ⊢
    rcases continued with rfl | rfl
    · rfl
    · exact (other line tail rfl).elim

/-- Each minus sign builds a negation of the operand behind it, one level deeper. -/
theorem signed_readsWords : (context.signed operand).ReadsWords context .signed (levels + 1) := by
  intro before tokens
  unfold signed
  simp only
  split
  · rename_i line rest
    refine (operatorStep_builds reads (fun b => Assembles.negation b before) rest).mono ?_
    rintro _ remaining ⟨word, b, rfl, rfl, derives, ends⟩
    exact ⟨⟨.operator '-', line⟩ :: word, _, rfl, rfl, .minus derives,
      (Category.endsBefore_cons_iff [] derives.ne_nil).mpr ends⟩
  · rename_i line rest
    apply Reading.Builds.bind (advance_builds before rest)
    rintro _ _ ⟨rfl, rfl⟩
    refine (reads _ _).mono ?_
    rintro _ remaining ⟨word, b, rfl, rfl, derives, ends⟩
    exact ⟨⟨.operator '+', line⟩ :: word, _, rfl, rfl, .plus derives,
      (Category.endsBefore_cons_iff [] derives.ne_nil).mpr ends⟩
  · refine (powered_readsWords reads before _).mono ?_
    rintro _ remaining ⟨word, tree, rfl, rfl, derives, ends⟩
    exact ⟨word, tree, rfl, rfl, .ofPower derives, ends⟩

end Operand

theorem operand_readsWords (context : Context) (levels : Nat) :
    (context.operand levels).ReadsWords context .signed levels := by
  induction levels with
  | zero => exact fun before tokens => refuse_builds rfl tokens
  | succ levels ih => exact signed_readsWords ih

end Context

end EquationText
