import EquationText.Proofs.Grammar.Continuation

/-! # Reading with more levels

Where expressions may be nested more deeply, everything is read as before but what was nested too deeply;
there the same instructions are found before the fault (`EquationText.Context.equation_within`). There is
one lemma for each production of the grammar.
-/

namespace EquationText

/-- The settings with other limits for the operand stack and for nesting. -/
def Settings.withLimits (settings : Settings) (stackDepth nesting : Int) : Settings :=
  { settings with maxStackDepth := stackDepth, maxNesting := nesting }

/-- Whether a fault marks a limit: of the operand stack, or of nesting. -/
def Cause.isLimit : Cause → Bool
  | stackFull | reading (.tooDeep _) => true
  | _ => false

theorem Fault.placedAt_cause (fault : Fault) (line : Nat) : (fault.placedAt line).cause = fault.cause := by
  unfold placedAt
  split <;> rfl

/-- The context with other limits. -/
def Context.withLimits (context : Context) (stackDepth nesting : Int) : Context :=
  { context with settings := context.settings.withLimits stackDepth nesting }

/-- Whether a reading does what a wider one does, or ends at a limit; then the wider one has found the same
instructions by then. -/
inductive Reading.IsWithin {α : Type} : Reading α → Reading α → Prop
  | same (reading : Reading α) : IsWithin reading reading
  | cut {fault : Fault} (limit : fault.cause.isLimit = true) (program more : List Instruction)
      (outcome : Except Fault α) : IsWithin ⟨program, .error fault⟩ ⟨program ++ more, outcome⟩

/-- Whether a production reads everything within what a wider one does. -/
def Production.IsWithin (production wider : Production) : Prop :=
  ∀ tokens, (production.read tokens).IsWithin (wider.read tokens)

/-- What comes after the same instructions. -/
theorem Reading.IsWithin.after {α : Type} {reading wider : Reading α} (within : reading.IsWithin wider)
    (program : List Instruction) :
    IsWithin ⟨program ++ reading.program, reading.outcome⟩ ⟨program ++ wider.program, wider.outcome⟩ := by
  cases within with
  | same => exact .same _
  | cut limit found more outcome =>
      simp only [← List.append_assoc]
      exact .cut limit _ more outcome

/-- A sequence of readings is within another one if each of them is. -/
theorem Reading.IsWithin.bind {α β : Type} {first wider : Reading α} {next other : α → Reading β}
    (left : first.IsWithin wider)
    (right : ∀ a, first.outcome = .ok a → (next a).IsWithin (other a)) :
    (first >>= next).IsWithin (wider >>= other) := by
  cases left with
  | same =>
      obtain ⟨program, fault | a⟩ := first
      · exact .same _
      · exact (right a rfl).after program
  | cut limit program more outcome =>
      cases outcome with
      | error found => exact .cut limit program more _
      | ok a =>
          simp only [Bind.bind, List.append_assoc]
          exact .cut limit program _ _

namespace Context

variable {context : Context} {stackDepth nesting : Int} {item wideItem : Production}

theorem operatorStep_within (within : item.IsWithin wideItem) (operator : Operator) (rest : List Token) :
    (context.operatorStep item operator rest).IsWithin
      ((context.withLimits stackDepth nesting).operatorStep wideItem operator rest) :=
  .bind (.same _) fun tokens _ => .bind (within tokens) fun _ _ => .same _

/-- A chain of items that are within wider ones is within the wider chain. -/
theorem chainRest_within (within : item.IsWithin wideItem) (operators : Char → Option Operator)
    (tokens : List Token) :
    (context.chainRest operators item tokens).IsWithin
      ((context.withLimits stackDepth nesting).chainRest operators wideItem tokens) := by
  induction size : tokens.length using Nat.strong_induction_on generalizing tokens with
  | _ size ih =>
  subst size
  by_cases goesOn : ∃ sign line rest operator,
      tokens = ⟨.operator sign, line⟩ :: rest ∧ operators sign = some operator
  · obtain ⟨sign, line, rest, operator, rfl, known⟩ := goesOn
    rw [Continuation.chainRest_some known, Continuation.chainRest_some known]
    exact .bind (operatorStep_within within operator rest) fun remaining ok =>
      ih _ (Nat.lt_succ_of_lt (context.operatorStep_length_lt ok)) remaining rfl
  · have ends : ∀ sign line rest, tokens = ⟨.operator sign, line⟩ :: rest → operators sign = none := by
      intro sign line rest same
      refine Option.eq_none_iff_forall_not_mem.mpr fun operator known => ?_
      exact goesOn ⟨sign, line, rest, operator, same, known⟩
    rw [chainRest_of_none ends, chainRest_of_none ends]
    exact .same _

theorem chain_within (within : item.IsWithin wideItem) (operators : Char → Option Operator) :
    (context.chain operators item).IsWithin
      ((context.withLimits stackDepth nesting).chain operators wideItem) := fun tokens =>
  .bind (within tokens) fun rest _ => chainRest_within within operators rest

theorem expression_within (within : item.IsWithin wideItem) :
    (context.expression item).IsWithin ((context.withLimits stackDepth nesting).expression wideItem) :=
  chain_within (chain_within within multiplicative) additive

theorem parenthesised_within (within : item.IsWithin wideItem) (rest : List Token) :
    (context.parenthesised item rest).IsWithin
      ((context.withLimits stackDepth nesting).parenthesised wideItem rest) :=
  .bind (.same _) fun tokens _ => .bind (within tokens) fun _ _ => .same _

theorem argument_within (within : item.IsWithin wideItem) (tokens : List Token) :
    (context.argument item tokens).IsWithin
      ((context.withLimits stackDepth nesting).argument wideItem tokens) := by
  unfold argument
  split
  · exact .bind (parenthesised_within within _) fun _ _ => .same _
  · exact .same _

theorem primary_within (within : item.IsWithin wideItem) :
    (context.primary item).IsWithin ((context.withLimits stackDepth nesting).primary wideItem) := by
  intro tokens
  unfold primary
  simp only
  split
  · exact .same _
  · exact .same _
  · exact .bind (.same _) fun rest _ => .bind (.same _) fun _ _ => argument_within within rest
  · exact parenthesised_within within _
  · exact .same _

theorem mediationStep_within (within : item.IsWithin wideItem) (rest : List Token) :
    (context.mediationStep item rest).IsWithin
      ((context.withLimits stackDepth nesting).mediationStep wideItem rest) :=
  .bind (.same _) fun first _ => .bind (within first) fun _ _ => .bind (.same _) fun second _ =>
    .bind (within second) fun _ _ => .same _

/-- Mediations between expressions that are within wider ones are within the wider mediations. -/
theorem mediations_within (within : item.IsWithin wideItem) (tokens : List Token) :
    (context.mediations item tokens).IsWithin
      ((context.withLimits stackDepth nesting).mediations wideItem tokens) := by
  induction size : tokens.length using Nat.strong_induction_on generalizing tokens with
  | _ size ih =>
  subst size
  by_cases goesOn : ∃ line rest, tokens = ⟨.mark '[', line⟩ :: rest
  · obtain ⟨line, rest, rfl⟩ := goesOn
    rw [Continuation.mediations_bracket, Continuation.mediations_bracket]
    exact .bind (mediationStep_within within rest) fun remaining ok =>
      ih _ (Nat.lt_succ_of_lt (context.mediationStep_length_lt ok)) remaining rfl
  · have none : ∀ line rest, tokens ≠ ⟨.mark '[', line⟩ :: rest := fun line rest same =>
      goesOn ⟨line, rest, same⟩
    rw [mediations_of_no_bracket none, mediations_of_no_bracket none]
    exact .same _

theorem postfixed_within (within : item.IsWithin wideItem) :
    (context.postfixed item).IsWithin ((context.withLimits stackDepth nesting).postfixed wideItem) :=
  fun tokens => .bind (primary_within within tokens) fun rest _ => mediations_within within rest

theorem powered_within (within : item.IsWithin wideItem) :
    (context.powered item).IsWithin ((context.withLimits stackDepth nesting).powered wideItem) := by
  refine fun tokens => .bind (postfixed_within (expression_within within) tokens) fun rest _ => ?_
  unfold exponent
  split
  · exact operatorStep_within within _ _
  · exact .same _

theorem signed_within (within : item.IsWithin wideItem) :
    (context.signed item).IsWithin ((context.withLimits stackDepth nesting).signed wideItem) := by
  intro tokens
  unfold signed
  simp only
  split
  · exact operatorStep_within within _ _
  · exact .bind (.same _) fun rest _ => within rest
  · exact powered_within within tokens

/-- An operand is read within one that may have more levels. -/
theorem operand_within (context : Context) (stackDepth nesting : Int) {levels more : Nat}
    (le : levels ≤ more) :
    (context.operand levels).IsWithin ((context.withLimits stackDepth nesting).operand more) := by
  induction levels generalizing more with
  | zero => exact fun tokens => .cut rfl [] _ _
  | succ levels ih =>
      obtain ⟨fewer, rfl⟩ := Nat.exists_eq_add_of_le' le
      exact signed_within (ih (Nat.le_add_left ..))

theorem rightSide_within (within : item.IsWithin wideItem) (rest : List Token) :
    (context.rightSide item rest).IsWithin
      ((context.withLimits stackDepth nesting).rightSide wideItem rest) :=
  .bind (.same _) fun tokens _ => .bind (within tokens) fun _ _ => .same _

/-- An equation is read within one whose sides are read within wider ones. -/
theorem equation_within (within : item.IsWithin wideItem) (tokens : List Token) :
    (context.equation item tokens).IsWithin
      ((context.withLimits stackDepth nesting).equation wideItem tokens) := by
  refine .bind (within tokens) fun rest _ => ?_
  split
  · exact rightSide_within within _
  · exact .same _

end Context

end EquationText
