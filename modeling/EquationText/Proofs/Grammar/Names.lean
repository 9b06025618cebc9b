import EquationText.Grammar.Document
import EquationText.Proofs.Token.Scan

/-! # The names in the programs of a document

A reading puts no name into its program that is not among its tokens, so that the programs of a
document have only names that the scan allows (`EquationText.documentSteps_names`). There is one lemma
for each production of the grammar.
-/

namespace EquationText

/-- Whether the names in a program are allowed. -/
def ProgramAllowed (allows : String → Prop) (program : List Instruction) : Prop :=
  ∀ name, .named name ∈ program → allows name

/-- Whether the names in the program of a reading are allowed, and what it leaves has a property when
it succeeds. -/
structure Reading.Allowed {α : Type} (allows : String → Prop) (leaves : α → Prop)
    (reading : Reading α) : Prop where
  program : ProgramAllowed allows reading.program
  outcome : ∀ a, reading.outcome = .ok a → leaves a

variable {allows : String → Prop}

namespace Reading.Allowed

variable {α β : Type} {leaves : α → Prop} {leavesNext : β → Prop}

theorem of_pure {a : α} (left : leaves a) : Allowed allows leaves (pure a : Reading α) where
  program := by
    intro name member
    cases member
  outcome := by
    intro b ok
    cases ok
    exact left

theorem of_fail (fault : Fault) : Allowed allows leaves (fail fault : Reading α) where
  program := by
    intro name member
    cases member
  outcome := by
    intro a ok
    cases ok

theorem of_emit {instruction : Instruction}
    (allowed : ∀ name, .named name = instruction → allows name) :
    Allowed allows (fun _ => True) (emit instruction) where
  program := fun name member => allowed name (List.mem_singleton.mp member)
  outcome := fun _ _ => trivial

/-- An operator is no name. -/
theorem of_emit_apply (operator : Operator) :
    Allowed allows (fun _ => True) (emit (.apply operator)) :=
  of_emit fun _ same => by cases same

/-- Two readings after another give allowed names if both do; the second may use what the first leaves. -/
theorem bind {first : Reading α} {next : α → Reading β} (left : Allowed allows leaves first)
    (right : ∀ a, leaves a → Allowed allows leavesNext (next a)) :
    Allowed allows leavesNext (first >>= next) := by
  cases found : first.outcome with
  | error fault =>
      have same : (first >>= next) = ⟨first.program, .error fault⟩ := by
        simp only [Bind.bind, found]
      rw [same]
      exact ⟨left.program, fun b ok => by cases ok⟩
  | ok a =>
      have same : (first >>= next) = ⟨first.program ++ (next a).program, (next a).outcome⟩ := by
        simp only [Bind.bind, found]
      rw [same]
      have nextAllowed := right a (left.outcome a found)
      refine ⟨fun name member => ?_, nextAllowed.outcome⟩
      rcases List.mem_append.mp member with here | later
      · exact left.program name here
      · exact nextAllowed.program name later

end Reading.Allowed

/-- Whether a production leads from tokens with allowed names to a program and tokens with allowed
names. -/
def Production.Allowed (allows : String → Prop) (production : Production) : Prop :=
  ∀ tokens, NamesAllowed allows tokens →
    (production.read tokens).Allowed allows (NamesAllowed allows)

namespace Context

variable {context : Context} {tokens rest : List Token}

theorem refuse_allowed {α : Type} {leaves : α → Prop} (fault : ReadingFault)
    (tokens : List Token) : (context.refuse fault tokens).Allowed allows leaves := .of_fail _

theorem advance_allowed (names : NamesAllowed allows rest) :
    (context.advance rest).Allowed allows (NamesAllowed allows) := by
  unfold advance
  split
  · exact .of_fail _
  · exact .of_pure names

theorem expectMark_allowed (sign : Char) (names : NamesAllowed allows tokens) :
    (context.expectMark sign tokens).Allowed allows (NamesAllowed allows) := by
  unfold expectMark
  split
  · split
    · exact advance_allowed names.tail
    · exact refuse_allowed _ _
  · exact refuse_allowed _ _

/-! ## Expressions -/

theorem operatorStep_allowed {item : Production} (itemAllowed : item.Allowed allows)
    (operator : Operator) (names : NamesAllowed allows rest) :
    (context.operatorStep item operator rest).Allowed allows (NamesAllowed allows) := by
  apply Reading.Allowed.bind (advance_allowed names)
  intro tokens left
  apply Reading.Allowed.bind (itemAllowed tokens left)
  intro remaining after
  apply Reading.Allowed.bind (.of_emit_apply operator)
  intro _ _
  exact .of_pure after

/-- A step of a loop and the rest of the loop make up a reading. -/
theorem step_allowed {α : Type} {leaves : α → Prop} {step : Reading (List Token)}
    {more : Reading α} (first : step.Allowed allows (NamesAllowed allows))
    (second : more.Allowed allows leaves) :
    (⟨step.program ++ more.program, more.outcome⟩ : Reading α).Allowed allows leaves where
  program name member := by
    rcases List.mem_append.mp member with here | later
    · exact first.program name here
    · exact second.program name later
  outcome := second.outcome

theorem failed_allowed {α : Type} {leaves : α → Prop} {step : Reading (List Token)} {fault : Fault}
    (first : step.Allowed allows (NamesAllowed allows)) :
    (⟨step.program, .error fault⟩ : Reading α).Allowed allows leaves :=
  ⟨first.program, fun _ ok => by cases ok⟩

theorem chainRest_allowed {operators : Char → Option Operator} {item : Production}
    (itemAllowed : item.Allowed allows) (names : NamesAllowed allows tokens) :
    (context.chainRest operators item tokens).Allowed allows (NamesAllowed allows) := by
  fun_induction chainRest context operators item tokens with
  | case1 sign line rest unknown => exact .of_pure names
  | case2 sign line rest operator known step fault failed =>
      exact failed_allowed (operatorStep_allowed itemAllowed operator names.tail)
  | case3 sign line rest operator known step remaining stepOk more ih =>
      have stepAllowed : (context.operatorStep item operator rest).Allowed allows _ :=
        operatorStep_allowed itemAllowed operator names.tail
      exact step_allowed stepAllowed (ih (stepAllowed.outcome _ stepOk))
  | case4 tokens other => exact .of_pure names

theorem chain_allowed (operators : Char → Option Operator) {item : Production}
    (itemAllowed : item.Allowed allows) : (context.chain operators item).Allowed allows := by
  intro tokens names
  apply Reading.Allowed.bind (itemAllowed tokens names)
  intro remaining left
  exact chainRest_allowed itemAllowed left

theorem expression_allowed {operand : Production} (operandAllowed : operand.Allowed allows) :
    (context.expression operand).Allowed allows :=
  chain_allowed _ (chain_allowed _ operandAllowed)

theorem parenthesised_allowed {inner : Production} (innerAllowed : inner.Allowed allows)
    (names : NamesAllowed allows rest) :
    (context.parenthesised inner rest).Allowed allows (NamesAllowed allows) := by
  apply Reading.Allowed.bind (advance_allowed names)
  intro tokens left
  apply Reading.Allowed.bind (innerAllowed tokens left)
  intro remaining after
  exact expectMark_allowed _ after

theorem argument_allowed {inner : Production} (innerAllowed : inner.Allowed allows)
    (names : NamesAllowed allows tokens) :
    (context.argument inner tokens).Allowed allows (NamesAllowed allows) := by
  unfold argument
  split
  · apply Reading.Allowed.bind (parenthesised_allowed innerAllowed names.tail)
    intro remaining left
    apply Reading.Allowed.bind (.of_emit_apply _)
    intro _ _
    exact .of_pure left
  · exact .of_pure names

/-- An operand that is pushed, and what is read after it. -/
theorem pushed_allowed {instruction : Instruction} {next : List Token → Reading (List Token)}
    (allowed : ∀ name, .named name = instruction → allows name) (names : NamesAllowed allows rest)
    (nextAllowed : ∀ tokens, NamesAllowed allows tokens →
      (next tokens).Allowed allows (NamesAllowed allows)) :
    (context.advance rest >>= fun tokens => Reading.emit instruction >>= fun _ =>
      next tokens).Allowed allows (NamesAllowed allows) := by
  apply Reading.Allowed.bind (advance_allowed names)
  intro tokens left
  apply Reading.Allowed.bind (.of_emit allowed)
  intro _ _
  exact nextAllowed tokens left

/-- The name of a primary operand is that of its token, and all other names come from the operand inside. -/
theorem primary_allowed {inner : Production} (innerAllowed : inner.Allowed allows) :
    (context.primary inner).Allowed allows := by
  intro tokens names
  unfold primary
  simp only
  split
  · exact pushed_allowed (fun _ same => by cases same) names.tail fun _ left => .of_pure left
  · exact pushed_allowed (fun _ same => by cases same) names.tail fun _ left => .of_pure left
  · rename_i name _ _
    have known : ∀ other, Instruction.named other = .named name → allows other := by
      intro other same
      cases same
      exact names.head
    exact pushed_allowed known names.tail fun _ left => argument_allowed innerAllowed left
  · exact parenthesised_allowed innerAllowed names.tail
  · exact refuse_allowed _ _

/-- A mediation has the names of its two sides. -/
theorem mediationStep_allowed {inner : Production} (innerAllowed : inner.Allowed allows)
    (names : NamesAllowed allows rest) :
    (context.mediationStep inner rest).Allowed allows (NamesAllowed allows) := by
  apply Reading.Allowed.bind (advance_allowed names)
  intro tokens opened
  apply Reading.Allowed.bind (innerAllowed tokens opened)
  intro afterFirst first
  apply Reading.Allowed.bind (expectMark_allowed ',' first)
  intro afterComma comma
  apply Reading.Allowed.bind (innerAllowed afterComma comma)
  intro afterSecond second
  apply Reading.Allowed.bind (expectMark_allowed ']' second)
  intro remaining closed
  apply Reading.Allowed.bind (.of_emit_apply _)
  intro _ _
  exact .of_pure closed

theorem mediations_allowed {inner : Production} (innerAllowed : inner.Allowed allows)
    (names : NamesAllowed allows tokens) :
    (context.mediations inner tokens).Allowed allows (NamesAllowed allows) := by
  fun_induction mediations context inner tokens with
  | case1 line rest step fault failed =>
      exact failed_allowed (mediationStep_allowed innerAllowed names.tail)
  | case2 line rest step remaining stepOk more ih =>
      have stepAllowed : (context.mediationStep inner rest).Allowed allows _ :=
        mediationStep_allowed innerAllowed names.tail
      exact step_allowed stepAllowed (ih (stepAllowed.outcome _ stepOk))
  | case3 tokens other => exact .of_pure names

theorem postfixed_allowed {inner : Production} (innerAllowed : inner.Allowed allows) :
    (context.postfixed inner).Allowed allows := by
  intro tokens names
  apply Reading.Allowed.bind (primary_allowed innerAllowed tokens names)
  intro remaining left
  exact mediations_allowed innerAllowed left

theorem exponent_allowed {operand : Production} (operandAllowed : operand.Allowed allows)
    (names : NamesAllowed allows tokens) :
    (context.exponent operand tokens).Allowed allows (NamesAllowed allows) := by
  unfold exponent
  split
  · exact operatorStep_allowed operandAllowed _ names.tail
  · exact .of_pure names

theorem powered_allowed {operand : Production} (operandAllowed : operand.Allowed allows) :
    (context.powered operand).Allowed allows := by
  intro tokens names
  have base : (context.postfixed (context.expression operand)).Allowed allows :=
    postfixed_allowed (expression_allowed operandAllowed)
  apply Reading.Allowed.bind (base tokens names)
  intro remaining left
  exact exponent_allowed operandAllowed left

theorem signed_allowed {operand : Production} (operandAllowed : operand.Allowed allows) :
    (context.signed operand).Allowed allows := by
  intro tokens names
  unfold signed
  simp only
  split
  · exact operatorStep_allowed operandAllowed _ names.tail
  · apply Reading.Allowed.bind (advance_allowed names.tail)
    intro remaining left
    exact operandAllowed remaining left
  · exact powered_allowed operandAllowed _ names

theorem operand_allowed (context : Context) (levels : Nat) :
    (context.operand levels).Allowed allows := by
  induction levels with
  | zero => exact fun tokens _ => refuse_allowed _ tokens
  | succ levels ih => exact signed_allowed ih

/-! ## Statements and documents -/

theorem rightSide_allowed {side : Production} (sideAllowed : side.Allowed allows)
    (names : NamesAllowed allows rest) :
    (context.rightSide side rest).Allowed allows (NamesAllowed allows) := by
  apply Reading.Allowed.bind (advance_allowed names)
  intro tokens left
  apply Reading.Allowed.bind (sideAllowed tokens left)
  intro remaining after
  split
  · exact refuse_allowed _ _
  · apply Reading.Allowed.bind (.of_emit_apply _)
    intro _ _
    exact .of_pure after

theorem equation_allowed {side : Production} (sideAllowed : side.Allowed allows)
    (names : NamesAllowed allows tokens) :
    (context.equation side tokens).Allowed allows (NamesAllowed allows) := by
  apply Reading.Allowed.bind (sideAllowed tokens names)
  intro remaining left
  split
  · exact rightSide_allowed sideAllowed left.tail
  · exact refuse_allowed _ _

end Context

/-- Whether the names in the program of a step, if it has one, are allowed. -/
def Step.NamesAllowed (allows : String → Prop) : Step → Prop
  | equation _ program | unfinished _ _ program _ => ProgramAllowed allows program
  | _ => True

/-- Whether the names in the programs of some steps are allowed. -/
def StepsAllowed (allows : String → Prop) (steps : List Step) : Prop :=
  ∀ step ∈ steps, step.NamesAllowed allows

namespace StepsAllowed

variable {step : Step} {steps : List Step}

theorem nil : StepsAllowed allows [] := List.forall_mem_nil _

theorem cons (first : step.NamesAllowed allows) (later : StepsAllowed allows steps) :
    StepsAllowed allows (step :: steps) := List.forall_mem_cons.mpr ⟨first, later⟩

theorem reverse (allowed : StepsAllowed allows steps) : StepsAllowed allows steps.reverse :=
  fun step member => allowed step (List.mem_reverse.mp member)

end StepsAllowed

namespace Context

variable (context : Context) {tokens rest : List Token} {found : List Step}

/-- The step of a statement has names from its tokens only, and so has what is left of them. -/
theorem statement_allowed {side : Production} (sideAllowed : side.Allowed allows)
    (names : NamesAllowed allows tokens) :
    (context.statement side tokens).1.NamesAllowed allows ∧
      ∀ remaining, (context.statement side tokens).2 = some remaining →
        NamesAllowed allows remaining := by
  unfold statement
  split
  · split
    · rename_i advanced
      refine ⟨trivial, fun remaining same => ?_⟩
      cases same
      exact (advance_allowed names.tail).outcome _ advanced
    · refine ⟨?_, fun _ same => by cases same⟩
      intro name member
      cases member
  · have reading : (context.equation side tokens).Allowed allows _ :=
      equation_allowed sideAllowed names
    simp only
    split
    · rename_i read
      refine ⟨reading.program, fun remaining same => ?_⟩
      cases same
      exact reading.outcome _ read
    · exact ⟨reading.program, fun _ same => by cases same⟩

/-- The names in the steps of a document are those of its tokens: each step takes its names from the tokens it
reads, and leaves the others. -/
theorem stepsFrom_allowed {side : Production} {inside : Bool} (sideAllowed : side.Allowed allows)
    (names : NamesAllowed allows tokens) (before : StepsAllowed allows found) :
    StepsAllowed allows (context.stepsFrom side inside found tokens) := by
  fun_induction stepsFrom context side inside found tokens with
  -- The end of the block and the end of a statement.
  | case1 found line rest remaining advanced ih => exact ih names.tail before
  | case2 found line rest fault failed => exact .reverse (.cons trivial before)
  | case3 found line rest remaining advanced ih => exact ih names.tail before
  | case4 found line rest fault failed => exact .reverse (.cons trivial before)
  -- A statement.
  | case5 found tokens notClose notEnd step read =>
      have stepAllowed := (context.statement_allowed sideAllowed names).1
      rw [read] at stepAllowed
      exact .reverse (.cons stepAllowed before)
  | case6 found tokens notClose notEnd step remaining read ended ih =>
      obtain ⟨stepAllowed, left⟩ := context.statement_allowed sideAllowed names
      rw [read] at stepAllowed left
      exact ih (left remaining rfl) (.cons stepAllowed before)
  | case7 found tokens notClose notEnd step remaining read open' fault =>
      have stepAllowed := (context.statement_allowed sideAllowed names).1
      rw [read] at stepAllowed
      exact .reverse (.cons trivial (.cons stepAllowed before))
  -- Outside of blocks.
  | case8 => exact before.reverse
  | case9 inside found outside token rest raw text remaining advanced ih =>
      exact ih names.tail (.cons trivial before)
  | case10 => exact .reverse (.cons trivial (.cons trivial before))
  | case11 inside found outside token rest name reference remaining advanced ih =>
      exact ih names.tail (.cons trivial before)
  | case12 => exact .reverse (.cons trivial (.cons trivial before))
  | case13 inside found outside token rest opened remaining advanced ih =>
      exact ih names.tail before
  | case14 => exact .reverse (.cons trivial before)
  | case15 => exact .reverse (.cons trivial before)

theorem steps_allowed (names : NamesAllowed allows tokens) :
    StepsAllowed allows (context.steps tokens) := by
  unfold steps
  split
  · exact .cons trivial .nil
  · exact context.stepsFrom_allowed (expression_allowed (operand_allowed _ _)) names .nil

end Context

/-- No program of a document names an unknown by the word for an unnamed one. -/
theorem documentSteps_names (settings : Settings) (text : String) :
    StepsAllowed (· ≠ settings.anonymousWord) (documentSteps settings text) :=
  Context.steps_allowed _ (scan_names settings text)

end EquationText
