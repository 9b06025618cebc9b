import EquationText.Grammar.Reading

/-! # The grammar of expressions

Sums and products group to the left, powers to the right; a sign binds weaker than a power, and
`t[a, b]` follows an operand directly. Every production is built on the production for operands with
signs one level further in, and the number of levels is limited.
-/

namespace EquationText

/-- The operators of a sum. -/
def additive : Char → Option Operator
  | '+' => some .sum
  | '-' => some .difference
  | _ => none

/-- The operators of a product. -/
def multiplicative : Char → Option Operator
  | '*' => some .product
  | '/' => some .quotient
  | _ => none

namespace Context

variable (context : Context)

/-- An operand after an operator, and the operator itself. -/
def operatorStep (item : Production) (operator : Operator) (rest : List Token) :
    Reading (List Token) := do
  let tokens ← context.advance rest
  let tokens ← item.read tokens
  Reading.emit (.apply operator)
  return tokens

theorem operatorStep_length_lt {item : Production} {operator : Operator}
    {rest remaining : List Token}
    (ok : (context.operatorStep item operator rest).outcome = .ok remaining) :
    remaining.length < rest.length := by
  obtain ⟨tokens, advanced, ok⟩ := Reading.bind_outcome_ok ok
  obtain ⟨after, itemRead, ok⟩ := Reading.bind_outcome_ok ok
  obtain ⟨_, _, ok⟩ := Reading.bind_outcome_ok ok
  rw [← Reading.pure_outcome_ok ok, ← context.advance_outcome_ok advanced]
  exact item.shortens _ _ itemRead

/-- The operators and operands that follow the first operand of a sum or a product. -/
def chainRest (operators : Char → Option Operator) (item : Production) :
    List Token → Reading (List Token)
  | ⟨.operator sign, line⟩ :: rest =>
    match operators sign with
    | none => pure (⟨.operator sign, line⟩ :: rest)
    | some operator =>
      let step := context.operatorStep item operator rest
      match _stepOk : step.outcome with
      | .error fault => ⟨step.program, .error fault⟩
      | .ok remaining =>
        let more := chainRest operators item remaining
        ⟨step.program ++ more.program, more.outcome⟩
  | tokens => pure tokens
termination_by tokens => tokens.length
decreasing_by
  exact Nat.lt_succ_of_lt (context.operatorStep_length_lt _stepOk)

/-- What is left behind a chain of operators is no longer than the tokens before it. -/
theorem chainRest_length_le {operators : Char → Option Operator} {item : Production} :
    ∀ {tokens rest : List Token},
      (context.chainRest operators item tokens).outcome = .ok rest →
        rest.length ≤ tokens.length := by
  intro tokens
  fun_induction chainRest context operators item tokens with
  | case1 sign line rest unknown =>
    intro remaining ok
    exact Nat.le_of_eq (by rw [← Reading.pure_outcome_ok ok])
  | case2 sign line rest operator known fault failed =>
    intro remaining ok
    cases ok
  | case3 =>
    rename_i after stepOk more ih
    intro remaining ok
    have shorter := context.operatorStep_length_lt stepOk
    have := ih ok
    simp only [List.length_cons]
    omega
  | case4 tokens other =>
    intro remaining ok
    exact Nat.le_of_eq (by rw [← Reading.pure_outcome_ok ok])

/-- Operands joined by operators of one kind, grouped to the left. -/
def chain (operators : Char → Option Operator) (item : Production) : Production where
  read tokens := do
    let tokens ← item.read tokens
    context.chainRest operators item tokens
  shortens tokens rest ok := by
    obtain ⟨after, itemRead, ok⟩ := Reading.bind_outcome_ok ok
    exact Nat.lt_of_le_of_lt (context.chainRest_length_le ok) (item.shortens _ _ itemRead)

/-- An expression whose operands are read by `operand`. -/
def expression (operand : Production) : Production :=
  context.chain additive (context.chain multiplicative operand)

/-- An expression in parentheses, from after the opening one. -/
def parenthesised (inner : Production) (rest : List Token) : Reading (List Token) := do
  let tokens ← context.advance rest
  let tokens ← inner.read tokens
  context.expectMark ')' tokens

theorem parenthesised_length_lt {inner : Production} {rest remaining : List Token}
    (ok : (context.parenthesised inner rest).outcome = .ok remaining) :
    remaining.length < rest.length := by
  obtain ⟨tokens, advanced, ok⟩ := Reading.bind_outcome_ok ok
  obtain ⟨after, innerRead, ok⟩ := Reading.bind_outcome_ok ok
  have first := inner.shortens _ _ innerRead
  have second := context.expectMark_outcome_ok ok
  rw [context.advance_outcome_ok advanced] at first
  omega

/-- The argument of a function, if one follows its name. -/
def argument (inner : Production) : List Token → Reading (List Token)
  | ⟨.mark '(', _⟩ :: rest => do
    let tokens ← context.parenthesised inner rest
    Reading.emit (.apply .application)
    return tokens
  | tokens => pure tokens

theorem argument_length_le {inner : Production} {tokens rest : List Token}
    (ok : (context.argument inner tokens).outcome = .ok rest) : rest.length ≤ tokens.length := by
  unfold argument at ok
  split at ok
  · obtain ⟨after, read, ok⟩ := Reading.bind_outcome_ok ok
    obtain ⟨_, _, ok⟩ := Reading.bind_outcome_ok ok
    rw [← Reading.pure_outcome_ok ok]
    have := context.parenthesised_length_lt read
    simp only [List.length_cons]
    omega
  · exact Nat.le_of_eq (by rw [← Reading.pure_outcome_ok ok])

/-- A number, an unknown, a function applied to an argument, or an expression in parentheses. -/
def primary (inner : Production) : Production where
  read
    | ⟨.number value, _⟩ :: rest => do
      let tokens ← context.advance rest
      Reading.emit (.number value)
      return tokens
    | ⟨.keyword _, _⟩ :: rest => do
      let tokens ← context.advance rest
      Reading.emit .anonymous
      return tokens
    | ⟨.ident name, _⟩ :: rest => do
      let tokens ← context.advance rest
      Reading.emit (.named name)
      context.argument inner tokens
    | ⟨.mark '(', _⟩ :: rest => context.parenthesised inner rest
    | tokens => context.refuse (.unexpected (context.shown tokens)) tokens
  shortens tokens rest ok := by
    split at ok
    · obtain ⟨after, advanced, ok⟩ := Reading.bind_outcome_ok ok
      obtain ⟨_, _, ok⟩ := Reading.bind_outcome_ok ok
      simp [← Reading.pure_outcome_ok ok, context.advance_outcome_ok advanced]
    · obtain ⟨after, advanced, ok⟩ := Reading.bind_outcome_ok ok
      obtain ⟨_, _, ok⟩ := Reading.bind_outcome_ok ok
      simp [← Reading.pure_outcome_ok ok, context.advance_outcome_ok advanced]
    · obtain ⟨after, advanced, ok⟩ := Reading.bind_outcome_ok ok
      obtain ⟨_, _, ok⟩ := Reading.bind_outcome_ok ok
      have := context.argument_length_le ok
      rw [context.advance_outcome_ok advanced] at this
      simp only [List.length_cons]
      omega
    · exact Nat.lt_succ_of_lt (context.parenthesised_length_lt ok)
    · cases ok

/-- One pair of bracketed expressions, from after the opening bracket. -/
def mediationStep (inner : Production) (rest : List Token) : Reading (List Token) := do
  let tokens ← context.advance rest
  let tokens ← inner.read tokens
  let tokens ← context.expectMark ',' tokens
  let tokens ← inner.read tokens
  let tokens ← context.expectMark ']' tokens
  Reading.emit (.apply .mediation)
  return tokens

/-- A mediation takes at least its marks. -/
theorem mediationStep_length_lt {inner : Production} {rest remaining : List Token}
    (ok : (context.mediationStep inner rest).outcome = .ok remaining) :
    remaining.length < rest.length := by
  obtain ⟨tokens, advanced, ok⟩ := Reading.bind_outcome_ok ok
  obtain ⟨afterFirst, firstRead, ok⟩ := Reading.bind_outcome_ok ok
  obtain ⟨afterComma, comma, ok⟩ := Reading.bind_outcome_ok ok
  obtain ⟨afterSecond, secondRead, ok⟩ := Reading.bind_outcome_ok ok
  obtain ⟨afterBracket, bracket, ok⟩ := Reading.bind_outcome_ok ok
  obtain ⟨_, _, ok⟩ := Reading.bind_outcome_ok ok
  rw [← Reading.pure_outcome_ok ok]
  have first := inner.shortens _ _ firstRead
  have second := inner.shortens _ _ secondRead
  have third := context.expectMark_outcome_ok comma
  have fourth := context.expectMark_outcome_ok bracket
  rw [context.advance_outcome_ok advanced] at first
  omega

/-- The bracketed pairs that follow an operand. -/
def mediations (inner : Production) : List Token → Reading (List Token)
  | ⟨.mark '[', _⟩ :: rest =>
    let step := context.mediationStep inner rest
    match _stepOk : step.outcome with
    | .error fault => ⟨step.program, .error fault⟩
    | .ok remaining =>
      let more := mediations inner remaining
      ⟨step.program ++ more.program, more.outcome⟩
  | tokens => pure tokens
termination_by tokens => tokens.length
decreasing_by
  exact Nat.lt_succ_of_lt (context.mediationStep_length_lt _stepOk)

/-- What is left behind mediations is no longer than the tokens before them. -/
theorem mediations_length_le {inner : Production} :
    ∀ {tokens rest : List Token}, (context.mediations inner tokens).outcome = .ok rest →
      rest.length ≤ tokens.length := by
  intro tokens
  fun_induction mediations context inner tokens with
  | case1 line rest fault failed =>
    intro remaining ok
    cases ok
  | case2 =>
    rename_i after stepOk more ih
    intro remaining ok
    have shorter := context.mediationStep_length_lt stepOk
    have := ih ok
    simp only [List.length_cons]
    omega
  | case3 tokens other =>
    intro remaining ok
    exact Nat.le_of_eq (by rw [← Reading.pure_outcome_ok ok])

/-- A primary operand with the bracketed pairs that follow it. -/
def postfixed (inner : Production) : Production where
  read tokens := do
    let tokens ← (context.primary inner).read tokens
    context.mediations inner tokens
  shortens tokens rest ok := by
    obtain ⟨after, primaryRead, ok⟩ := Reading.bind_outcome_ok ok
    exact Nat.lt_of_le_of_lt (context.mediations_length_le ok)
      ((context.primary inner).shortens _ _ primaryRead)

/-- The exponent of a power, if one follows its base. -/
def exponent (operand : Production) : List Token → Reading (List Token)
  | ⟨.operator '^', _⟩ :: rest => context.operatorStep operand .exponentiation rest
  | tokens => pure tokens

theorem exponent_length_le {operand : Production} {tokens rest : List Token}
    (ok : (context.exponent operand tokens).outcome = .ok rest) :
    rest.length ≤ tokens.length := by
  unfold exponent at ok
  split at ok
  · have := context.operatorStep_length_lt ok
    simp only [List.length_cons]
    omega
  · exact Nat.le_of_eq (by rw [← Reading.pure_outcome_ok ok])

/-- A power, or an operand without an exponent. -/
def powered (operand : Production) : Production where
  read tokens := do
    let tokens ← (context.postfixed (context.expression operand)).read tokens
    context.exponent operand tokens
  shortens tokens rest ok := by
    obtain ⟨after, baseRead, ok⟩ := Reading.bind_outcome_ok ok
    exact Nat.lt_of_le_of_lt (context.exponent_length_le ok)
      ((context.postfixed (context.expression operand)).shortens _ _ baseRead)

/-- An operand with a sign, or a power. -/
def signed (operand : Production) : Production where
  read
    | ⟨.operator '-', _⟩ :: rest => context.operatorStep operand .negation rest
    | ⟨.operator '+', _⟩ :: rest => do
      let tokens ← context.advance rest
      operand.read tokens
    | tokens => (context.powered operand).read tokens
  shortens tokens rest ok := by
    split at ok
    · exact Nat.lt_succ_of_lt (context.operatorStep_length_lt ok)
    · obtain ⟨after, advanced, ok⟩ := Reading.bind_outcome_ok ok
      have := operand.shortens _ _ ok
      rw [context.advance_outcome_ok advanced] at this
      exact Nat.lt_succ_of_lt this
    · exact (context.powered operand).shortens _ _ ok

/-- An operand that is nested too deeply. -/
def tooDeep : Production where
  read tokens := context.refuse context.settings.nestingFault tokens
  shortens tokens rest ok := by cases ok

/-- An operand with signs that may be nested to the given number of levels. -/
def operand : (levels : Nat) → Production
  | 0 => context.tooDeep
  | levels + 1 => context.signed (operand levels)

end Context

end EquationText
