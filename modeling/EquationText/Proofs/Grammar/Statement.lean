import EquationText.Grammar.Document
import EquationText.Proofs.Grammar.Completeness
import EquationText.Proofs.Session.Building

/-! # Statements and the equations at their start

A statement is taken for an equation exactly when an equation of the grammar stands at its start and is
not carried on by the token after it (`EquationText.Context.statement_of_derives`,
`EquationText.Context.exists_derives_of_statement`). The tokens of an equation have one tree only
(`EquationText.DerivesEquation.unique`).
-/

namespace EquationText

/-- Whether an equation ends where some tokens begin: they carry its second side on with no token, and
start with no further equals sign. -/
def EquationEndsBefore (word rest : List Token) : Prop :=
  Category.expression.EndsBefore word rest ∧ ∀ line tail, rest ≠ ⟨.operator '=', line⟩ :: tail

/-- An equation ends where its statement does. -/
theorem EquationEndsBefore.of_endsStatement {word rest : List Token}
    (ends : Context.endsStatement rest = true) : EquationEndsBefore word rest := by
  unfold Context.endsStatement at ends
  split at ends
  · exact ⟨Category.endsBefore_cons (by simp [Category.continuations]) (by simp), by simp⟩
  · exact ⟨Category.endsBefore_cons (by simp [Category.continuations]) (by simp), by simp⟩
  · cases ends

/-- Where an equation ends depends on the next token. -/
theorem EquationEndsBefore.of_append {word extra rest : List Token}
    (ends : EquationEndsBefore word (extra ++ rest)) (nonempty : extra ≠ []) :
    EquationEndsBefore word extra := by
  refine ⟨fun next head => ends.1 next (by rwa [List.head?_append_of_ne_nil _ nonempty]), ?_⟩
  rintro line tail rfl
  exact ends.2 line (tail ++ rest) rfl

theorem EquationEndsBefore.of_head {word rest others : List Token} {next : Token}
    (ends : EquationEndsBefore word (next :: rest)) : EquationEndsBefore word (next :: others) := by
  refine ⟨fun found head => ends.1 found head, ?_⟩
  rintro line tail same
  cases same
  exact ends.2 line rest rfl

/-- Whether a token belongs to expressions and equations. -/
def Lexeme.isOfExpression : Lexeme → Bool
  | ident _ | keyword _ | number _ | operator _ | mark _ => true
  | text _ | reference _ | statementEnd | blockOpen | blockClose | command _ _ => false

/-- Whether a token ends a statement. -/
def Lexeme.endsStatement : Lexeme → Bool
  | statementEnd | blockClose => true
  | _ => false

theorem Lexeme.endsStatement_of_isOfExpression {lexeme : Lexeme}
    (expression : lexeme.isOfExpression = true) : lexeme.endsStatement = false := by
  cases lexeme <;> first | rfl | cases expression

variable {context : Context} {category : Category} {levels : Nat} {word rest tokens : List Token}
  {tree other : Expr}

/-- All tokens of a word that is derived are of kinds that occur in expressions. -/
theorem Derives.isOfExpression (derives : Derives category levels word tree) :
    ∀ token ∈ word, token.lexeme.isOfExpression = true := by
  induction derives with
  | ofTerm _ ih | ofSigned _ ih | ofPower _ ih | ofPostfixed _ ih | ofPrimary _ ih => exact ih
  | sum _ _ first second | difference _ _ first second | product _ _ first second
  | quotient _ _ first second | power _ _ first second =>
      exact List.forall_mem_append.mpr ⟨first, List.forall_mem_cons.mpr ⟨rfl, second⟩⟩
  | minus _ ih | plus _ ih => exact List.forall_mem_cons.mpr ⟨rfl, ih⟩
  | mediation _ _ _ condition consequent alternative =>
      intro token member
      simp only [List.mem_append, List.mem_cons, List.not_mem_nil, or_false] at member
      rcases member with inside | rfl | inside | rfl | inside | rfl
      · exact condition token inside
      · rfl
      · exact consequent token inside
      · rfl
      · exact alternative token inside
      · rfl
  | number | anonymous | named => exact List.forall_mem_singleton.mpr rfl
  | application _ ih =>
      intro token member
      simp only [List.mem_append, List.mem_cons, List.not_mem_nil, or_false] at member
      rcases member with rfl | rfl | inside | rfl
      · rfl
      · rfl
      · exact ih token inside
      · rfl
  | parenthesised _ ih =>
      intro token member
      simp only [List.mem_append, List.mem_cons, List.not_mem_nil, or_false] at member
      rcases member with rfl | inside | rfl
      · rfl
      · exact ih token inside
      · rfl

namespace DerivesEquation

theorem isOfExpression (derives : DerivesEquation levels word tree) :
    ∀ token ∈ word, token.lexeme.isOfExpression = true := by
  obtain ⟨first, second⟩ := derives
  exact List.forall_mem_append.mpr
    ⟨first.isOfExpression, List.forall_mem_cons.mpr ⟨rfl, second.isOfExpression⟩⟩

theorem ne_nil (derives : DerivesEquation levels word tree) : word ≠ [] := by
  obtain ⟨first, second⟩ := derives
  simp

end DerivesEquation

namespace Context

theorem endsStatement_cons (token : Token) (rest : List Token) :
    endsStatement (token :: rest) = token.lexeme.endsStatement := by
  obtain ⟨lexeme, line⟩ := token
  cases lexeme <;> rfl

/-! ## Equations -/

/-- The production of a category takes words of the category. -/
theorem production_readsWords (context : Context) (levels : Nat) (category : Category) :
    (context.production levels category).ReadsWords context category levels := by
  have operands := operand_readsWords context levels
  cases category with
  | expression => exact expression_readsWords operands
  | term => exact chain_readsWords groups_multiplicative operands
  | signed => exact operands
  | power => exact powered_readsWords operands
  | postfixed => exact postfixed_readsWords (expression_readsWords operands)
  | primary => exact primary_readsWords (expression_readsWords operands)

/-- What is read as an equation is one, and ends there. -/
theorem equation_builds (context : Context) (levels : Nat) (before : List Expr) (tokens : List Token) :
    (context.equation (context.production levels .expression) tokens).Builds context before
      fun after rest => ∃ word tree, after = before ++ [tree] ∧ tokens = word ++ rest ∧
        DerivesEquation levels word tree ∧ EquationEndsBefore word rest := by
  have reads := production_readsWords context levels .expression
  apply Reading.Builds.bind (reads before tokens)
  rintro _ middle ⟨left, a, rfl, rfl, first, -⟩
  split
  · rename_i line tail
    apply Reading.Builds.bind (advance_builds _ tail)
    rintro _ _ ⟨rfl, rfl⟩
    apply Reading.Builds.bind (reads _ _)
    rintro _ remaining ⟨right, b, rfl, rfl, second, ends⟩
    split
    · exact refuse_builds rfl _
    · rename_i other
      refine .bind (.of_emit (Assembles.binary rfl a b before)) ?_
      rintro _ _ rfl
      refine .of_pure ⟨left ++ ⟨.operator '=', line⟩ :: right, _, rfl, by simp, .intro first second,
        (Category.endsBefore_cons_iff _ second.ne_nil).mpr ends, ?_⟩
      rintro position tail rfl
      exact other position tail rfl
  · exact refuse_builds rfl _

end Context

/-- An equation is read, with the program of its tree. -/
theorem DerivesEquation.read (context : Context) (derives : DerivesEquation levels word tree)
    (remains : rest ≠ []) (ends : EquationEndsBefore word rest) :
    context.equation (context.production levels .expression) (word ++ rest) =
      ⟨tree.program, .ok rest⟩ := by
  obtain @⟨left, right, a, b, line, first, second⟩ := derives
  have firstEnds : Category.expression.EndsBefore left (⟨.operator '=', line⟩ :: (right ++ rest)) :=
    Category.endsBefore_cons (by simp [Category.continuations]) (by simp)
  have firstRead := (first.takes context).read (List.cons_ne_nil _ _) firstEnds
  have secondRead := (second.takes context).read remains
    ((Category.endsBefore_cons_iff _ second.ne_nil).mp ends.1)
  have sideRead : context.rightSide (context.production levels .expression) (right ++ rest) =
      ⟨b.program ++ [.apply .equation], .ok rest⟩ := by
    unfold Context.rightSide
    rw [Reading.bind_of_eq (context.advance_of_ne_nil (by simp [remains])),
      Reading.bind_of_eq secondRead]
    split
    · exact (ends.2 _ _ rfl).elim
    · rfl
  rw [List.append_assoc, List.cons_append]
  refine (Reading.bind_of_eq firstRead).trans ?_
  exact congrArg (Reading.after _) sideRead

/-- The tokens of an equation have one tree. -/
theorem DerivesEquation.unique {fewer : Nat} (derives : DerivesEquation levels word tree)
    (derivesOther : DerivesEquation fewer word other) : other = tree := by
  let context : Context := ⟨{}, .ok 0⟩
  have ends : EquationEndsBefore word [⟨.blockClose, 0⟩] := .of_endsStatement rfl
  have read := (derives.mono (Nat.le_max_left levels fewer)).read context (List.cons_ne_nil _ _) ends
  have readOther := (derivesOther.mono (Nat.le_max_right levels fewer)).read context
    (List.cons_ne_nil _ _) ends
  have same : other.program = tree.program := congrArg Reading.program (readOther.symm.trans read)
  exact Expr.program_injective derivesOther.isWellFormed derives.isWellFormed same

/-- An equation that ends before some tokens is no beginning of a longer one with these. -/
theorem DerivesEquation.not_derives_append {fewer : Nat} {extra : List Token}
    (derives : DerivesEquation levels word tree) (ends : EquationEndsBefore word extra)
    (nonempty : extra ≠ []) : ¬ DerivesEquation fewer (word ++ extra) other := by
  intro longer
  let context : Context := ⟨{}, .ok 0⟩
  have shortEnds : EquationEndsBefore word (extra ++ [⟨.blockClose, 0⟩]) := by
    obtain ⟨next, tail, rfl⟩ := List.exists_cons_of_ne_nil nonempty
    exact ends.of_head
  have read := (derives.mono (Nat.le_max_left levels fewer)).read context (by simp) shortEnds
  have longEnds : EquationEndsBefore (word ++ extra) [⟨.blockClose, 0⟩] := .of_endsStatement rfl
  have readLonger := (longer.mono (Nat.le_max_right levels fewer)).read context
    (List.cons_ne_nil _ _) longEnds
  rw [List.append_assoc, read] at readLonger
  have same := Except.ok.inj (congrArg Reading.outcome readLonger)
  exact nonempty (by simpa using same)

namespace Context

/-! ## Statements -/

/-- A statement that is no command is read as an equation. -/
theorem statement_of_no_command {side : Production}
    (noCommand : ∀ token ∈ tokens.head?, ∀ name payload, token.lexeme ≠ .command name payload) :
    context.statement side tokens =
      match (context.equation side tokens).outcome with
      | .ok remaining =>
        (.equation (context.lineOf tokens) (context.equation side tokens).program, some remaining)
      | .error fault =>
        (.unfinished (context.lineOf tokens) true (context.equation side tokens).program fault,
          none) := by
  unfold statement
  split
  · exact (noCommand _ rfl _ _ rfl).elim
  · rfl

/-- A statement that is no command is an equation if it is read to its end. -/
theorem exists_equation_of_no_command {side : Production} {step : Step}
    (noCommand : ∀ token ∈ tokens.head?, ∀ name payload, token.lexeme ≠ .command name payload)
    (read : context.statement side tokens = (step, some rest)) :
    ∃ line program, step = .equation line program := by
  rw [statement_of_no_command noCommand] at read
  split at read
  · cases read
    exact ⟨_, _, rfl⟩
  · cases read

/-- An equation at the start of a statement that is not carried on is taken for the statement. -/
theorem statement_of_derives (context : Context) (derives : DerivesEquation levels word tree)
    (remains : rest ≠ []) (ends : EquationEndsBefore word rest) :
    context.statement (context.production levels .expression) (word ++ rest) =
      (.equation (context.lineOf (word ++ rest)) tree.program, some rest) := by
  rw [statement_of_no_command, derives.read context remains ends]
  rw [List.head?_append_of_ne_nil _ derives.ne_nil]
  rintro ⟨lexeme, line⟩ head name payload rfl
  cases derives.isOfExpression _ (List.mem_of_mem_head? head)

/-- A statement that is taken for an equation has one at its start that is not carried on. -/
theorem exists_derives_of_statement {line : Nat} {program : List Instruction} {next : Option (List Token)}
    (read : context.statement (context.production levels .expression) tokens =
      (.equation line program, next)) :
    ∃ word tree rest, tokens = word ++ rest ∧ next = some rest ∧ program = tree.program ∧
      line = context.lineOf tokens ∧ DerivesEquation levels word tree ∧
      EquationEndsBefore word rest := by
  unfold statement at read
  split at read
  · split at read <;> cases read
  · simp only at read
    split at read
    · rename_i remaining ok
      cases read
      obtain ⟨_, ⟨programs, _⟩, word, tree, rfl, taken, derives, ends⟩ :=
        (equation_builds context levels [] tokens).outcome remaining ok
      refine ⟨word, tree, remaining, taken, rfl, ?_, rfl, derives, ends⟩
      simpa [Expr.programs] using programs.symm
    · cases read

end Context

end EquationText
