import EquationText.Proofs.Grammar.Soundness

/-! # Every word is read

Before tokens that do not carry it on, a word of a category is read by the production of the category,
with the program of its tree (`EquationText.Derives.takes`). Sums, products and bracketed pairs grow at their
ends: what is read after a first part of them (`EquationText.Context.onward`) does not depend on how the
part was found.
-/

namespace EquationText

namespace Reading

variable {α β : Type}

/-- A reading that comes after a program found before. -/
def after (earlier : List Instruction) (reading : Reading α) : Reading α :=
  ⟨earlier ++ reading.program, reading.outcome⟩

theorem after_after (first second : List Instruction) (reading : Reading α) :
    (reading.after second).after first = reading.after (first ++ second) := by
  simp only [after, List.append_assoc]

theorem after_pure (earlier : List Instruction) (a : α) :
    (pure a : Reading α).after earlier = ⟨earlier, .ok a⟩ :=
  congrArg (Reading.mk · _) (List.append_nil earlier)

theorem bind_of_eq {first : Reading α} {next : α → Reading β} {program : List Instruction} {a : α}
    (ok : first = ⟨program, .ok a⟩) : (first >>= next) = (next a).after program := by
  rw [ok]
  rfl

end Reading

/-! ## First and last tokens -/

namespace Category

/-- The category whose words are the first ones of a category that grows at its end. -/
def first : Category → Category
  | expression => term
  | term => signed
  | signed => signed
  | power => power
  | postfixed => primary
  | primary => primary

variable {category : Category} {word rest : List Token}

/-- Where a word ends, its first part may end. -/
theorem EndsBefore.first (ends : category.EndsBefore word rest) :
    category.first.EndsBefore word rest := by
  refine ends.mono ?_
  cases category <;> simp [Category.first, continuations]

end Category

/-- Whether the words of a category start with no sign. -/
def Category.isUnsigned : Category → Bool
  | .power | .postfixed | .primary => true
  | .expression | .term | .signed => false

variable {category : Category} {levels : Nat} {word rest remaining : List Token} {tree : Expr}

/-- The words of operands without a sign start with no operator. -/
theorem Derives.head?_ne_operator (derives : Derives category levels word tree)
    (unsigned : category.isUnsigned = true) :
    ∀ token ∈ word.head?, ∀ sign, token.lexeme ≠ .operator sign := by
  induction derives with
  | ofTerm _ _ | sum _ _ _ _ | difference _ _ _ _ | ofSigned _ _ | product _ _ _ _
  | quotient _ _ _ _ | ofPower _ _ | minus _ _ | plus _ _ => cases unsigned
  | ofPostfixed _ ih | ofPrimary _ ih => exact ih rfl
  | power base _ ih _ =>
      rw [List.head?_append_of_ne_nil _ base.ne_nil]
      exact ih rfl
  | mediation condition _ _ ih _ _ =>
      rw [List.head?_append_of_ne_nil _ condition.ne_nil]
      exact ih rfl
  | number | anonymous | named | application _ _ | parenthesised _ _ =>
      intro token head sign
      cases head
      exact Lexeme.noConfusion

namespace Context

/-! ## Steps -/

variable {context : Context} {item inner operand : Production} {line : Nat}
  {program first second : List Instruction}

theorem advance_of_ne_nil (context : Context) (nonempty : rest ≠ []) :
    context.advance rest = pure rest := by
  unfold advance
  split
  · exact (nonempty rfl).elim
  · rfl

theorem expectMark_of_ne_nil (context : Context) (sign : Char) (nonempty : rest ≠ []) :
    context.expectMark sign (⟨.mark sign, line⟩ :: rest) = pure rest := by
  simp only [expectMark, ↓reduceIte]
  exact context.advance_of_ne_nil nonempty

/-- An operand is read and its operator applied. -/
theorem operatorStep_of_read (context : Context) (operator : Operator) (nonempty : rest ≠ [])
    (read : item.read rest = ⟨program, .ok remaining⟩) :
    context.operatorStep item operator rest = ⟨program ++ [.apply operator], .ok remaining⟩ := by
  unfold operatorStep
  rw [Reading.bind_of_eq (context.advance_of_ne_nil nonempty), Reading.bind_of_eq read]
  rfl

/-- A sum or a product goes on after an operator and its operand. -/
theorem chainRest_cons {operators : Char → Option Operator} {operator : Operator} {sign : Char}
    (known : operators sign = some operator) (nonempty : rest ≠ [])
    (read : item.read rest = ⟨program, .ok remaining⟩) :
    context.chainRest operators item (⟨.operator sign, line⟩ :: rest) =
      (context.chainRest operators item remaining).after (program ++ [.apply operator]) := by
  have step := context.operatorStep_of_read operator nonempty read
  rw [chainRest]
  split
  · rename_i unknown
    rw [known] at unknown
    cases unknown
  · rename_i found same
    cases known.symm.trans same
    simp only
    split
    · rename_i failed
      rw [step] at failed
      cases failed
    · rename_i after ok
      rw [step] at ok
      cases ok
      rw [step]
      rfl

theorem chainRest_of_none {operators : Char → Option Operator}
    (other : ∀ sign line tail, rest = ⟨.operator sign, line⟩ :: tail → operators sign = none) :
    context.chainRest operators item rest = pure rest := by
  unfold chainRest
  split
  · rename_i sign line tail
    rw [other sign line tail rfl]
  · rfl

/-- Between its marks a mediation reads what its two sides read, and applies itself to them. -/
theorem mediationStep_of_read (context : Context) {comma closing : Nat} {left right : List Token}
    (remains : rest ≠ [])
    (leftRead : inner.read (left ++ ⟨.mark ',', comma⟩ :: (right ++ ⟨.mark ']', closing⟩ :: rest)) =
      ⟨first, .ok (⟨.mark ',', comma⟩ :: (right ++ ⟨.mark ']', closing⟩ :: rest))⟩)
    (rightRead : inner.read (right ++ ⟨.mark ']', closing⟩ :: rest) =
      ⟨second, .ok (⟨.mark ']', closing⟩ :: rest)⟩) :
    context.mediationStep inner
        (left ++ ⟨.mark ',', comma⟩ :: (right ++ ⟨.mark ']', closing⟩ :: rest)) =
      ⟨first ++ (second ++ [.apply .mediation]), .ok rest⟩ := by
  unfold mediationStep
  rw [Reading.bind_of_eq (context.advance_of_ne_nil (by simp)), Reading.bind_of_eq leftRead,
    Reading.bind_of_eq (context.expectMark_of_ne_nil ',' (by simp)), Reading.bind_of_eq rightRead,
    Reading.bind_of_eq (context.expectMark_of_ne_nil ']' remains)]
  rfl

/-- Bracketed pairs go on after one of them. -/
theorem mediations_cons (step : context.mediationStep inner rest = ⟨program, .ok remaining⟩) :
    context.mediations inner (⟨.mark '[', line⟩ :: rest) =
      (context.mediations inner remaining).after program := by
  rw [mediations]
  simp only
  split
  · rename_i failed
    rw [step] at failed
    cases failed
  · rename_i after ok
    rw [step] at ok
    cases ok
    rw [step]
    rfl

theorem mediations_of_no_bracket (other : ∀ line tail, rest ≠ ⟨.mark '[', line⟩ :: tail) :
    context.mediations inner rest = pure rest := by
  unfold mediations
  split
  · rename_i line tail
    exact (other line tail rfl).elim
  · rfl

theorem exponent_of_no_power (other : ∀ line tail, rest ≠ ⟨.operator '^', line⟩ :: tail) :
    context.exponent operand rest = pure rest := by
  unfold exponent
  split
  · rename_i line tail
    exact (other line tail rfl).elim
  · rfl

theorem argument_of_no_call (other : ∀ line tail, rest ≠ ⟨.mark '(', line⟩ :: tail) :
    context.argument inner rest = pure rest := by
  unfold argument
  split
  · rename_i line tail
    exact (other line tail rfl).elim
  · rfl

/-- No other mark than a parenthesis starts an operand. -/
theorem primary_of_mark {sign : Char} (other : sign ≠ '(') :
    (context.primary inner).read (⟨.mark sign, line⟩ :: rest) =
      context.refuse (.unexpected (context.shown (⟨.mark sign, line⟩ :: rest))) (⟨.mark sign, line⟩ :: rest) := by
  unfold primary
  simp only
  split
  · rename_i same
    cases same
  · rename_i same
    cases same
  · rename_i same
    cases same
  · rename_i same
    cases same
    exact (other rfl).elim
  · rfl

/-- An operand that does not start with a sign is read as a power. -/
theorem signed_read_of_head (unsigned : ∀ token ∈ rest.head?, ∀ sign, token.lexeme ≠ .operator sign) :
    (context.signed operand).read rest = (context.powered operand).read rest := by
  unfold signed
  simp only
  split
  · exact (unsigned _ rfl _ rfl).elim
  · exact (unsigned _ rfl _ rfl).elim
  · rfl

/-! ## Words -/

/-- The production that reads the words of a category. -/
def production (context : Context) (levels : Nat) : Category → Production
  | .expression => context.expression (context.operand levels)
  | .term => context.chain multiplicative (context.operand levels)
  | .signed => context.operand levels
  | .power => context.powered (context.operand levels)
  | .postfixed => context.postfixed (context.expression (context.operand levels))
  | .primary => context.primary (context.expression (context.operand levels))

/-- How the production of a category goes on after a first part of a word. -/
def onward (context : Context) (levels : Nat) : Category → List Token → Reading (List Token)
  | .expression => context.chainRest additive (context.production levels .term)
  | .term => context.chainRest multiplicative (context.production levels .signed)
  | .postfixed => context.mediations (context.production levels .expression)
  | .signed | .power | .primary => pure

/-- After a whole word nothing more is read. -/
theorem onward_of_endsBefore (ends : category.EndsBefore word rest) :
    context.onward levels category rest = pure rest := by
  have outside : ∀ lexeme line tail, rest = ⟨lexeme, line⟩ :: tail →
      lexeme ∉ category.continuations := by
    rintro lexeme line tail rfl continued
    exact ends _ rfl (.inl continued)
  cases category with
  | expression =>
      refine chainRest_of_none fun sign line tail same => ?_
      have other := outside _ line tail same
      unfold additive
      split <;> simp_all [Category.continuations]
  | term =>
      refine chainRest_of_none fun sign line tail same => ?_
      have other := outside _ line tail same
      unfold multiplicative
      split <;> simp_all [Category.continuations]
  | postfixed =>
      refine mediations_of_no_bracket fun line tail same => ?_
      exact outside _ line tail same (by simp [Category.continuations])
  | signed | power | primary => rfl

/-- Whether the production of a category takes a word before tokens with which the first part of a word
may end, finds a program for it, and goes on from there. -/
def Takes (context : Context) (levels : Nat) (category : Category) (word : List Token)
    (program : List Instruction) : Prop :=
  ∀ rest, rest ≠ [] → category.first.EndsBefore word rest →
    (context.production levels category).read (word ++ rest) =
      (context.onward levels category rest).after program

namespace Takes

/-- A word that ends is read to its end. -/
theorem read (takes : context.Takes levels category word program) (remains : rest ≠ [])
    (ends : category.EndsBefore word rest) :
    (context.production levels category).read (word ++ rest) = ⟨program, .ok rest⟩ := by
  rw [takes rest remains ends.first, onward_of_endsBefore ends, Reading.after_pure]

/-- A sum or a product is carried on by an operator and its operand. -/
theorem join {operators : Char → Option Operator} {chain : Category} {sign : Char}
    {operator : Operator} {left right : List Token}
    (onward : context.onward levels chain =
      context.chainRest operators (context.production levels chain.first))
    (known : operators sign = some operator)
    (separates : .operator sign ∉ chain.first.continuations)
    (leftTakes : context.Takes levels chain left first)
    (rightTakes : context.Takes levels chain.first right second) (nonempty : right ≠ []) :
    context.Takes levels chain (left ++ ⟨.operator sign, line⟩ :: right)
      (first ++ (second ++ [.apply operator])) := by
  intro rest remains ends
  have leftEnds : chain.first.EndsBefore left (⟨.operator sign, line⟩ :: (right ++ rest)) :=
    Category.endsBefore_cons separates (by simp)
  have rightRead := rightTakes.read remains ((Category.endsBefore_cons_iff _ nonempty).mp ends)
  rw [List.append_assoc, List.cons_append, leftTakes _ (by simp) leftEnds, onward,
    chainRest_cons known (by simp [remains]) rightRead, Reading.after_after]

/-- An operand between marks is read up to the closing one. -/
theorem read_before_mark (takes : context.Takes levels .expression word program) (sign : Char)
    (line : Nat) (rest : List Token)
    (separates : .mark sign ∉ Category.expression.continuations) (noCall : sign ≠ '(') :
    (context.production levels .expression).read (word ++ ⟨.mark sign, line⟩ :: rest) =
      ⟨program, .ok (⟨.mark sign, line⟩ :: rest)⟩ :=
  takes.read (by simp) (Category.endsBefore_cons separates (by simpa using noCall))

/-- A word in parentheses is read. -/
theorem parenthesised (takes : context.Takes levels .expression word program) (closing : Nat)
    (remains : rest ≠ []) :
    context.parenthesised (context.production levels .expression)
      (word ++ ⟨.mark ')', closing⟩ :: rest) = ⟨program, .ok rest⟩ := by
  have read := takes.read_before_mark ')' closing rest
    (by simp [Category.continuations]) (by decide)
  unfold Context.parenthesised
  rw [Reading.bind_of_eq (context.advance_of_ne_nil (by simp)), Reading.bind_of_eq read,
    context.expectMark_of_ne_nil ')' remains, Reading.after_pure, Reading.after, List.nil_append]

end Takes

end Context

/-- Every word of a category is taken, with the program of its tree. -/
theorem Derives.takes (context : Context) (derives : Derives category levels word tree) :
    context.Takes levels category word tree.program := by
  induction derives with
  | ofTerm only ih => exact fun rest remains ends => Reading.bind_of_eq (ih.read remains ends)
  | sum first second firstTakes secondTakes =>
      exact firstTakes.join rfl rfl (by simp [Category.first, Category.continuations]) secondTakes
        second.ne_nil
  | difference first second firstTakes secondTakes =>
      exact firstTakes.join rfl rfl (by simp [Category.first, Category.continuations]) secondTakes
        second.ne_nil
  | ofSigned only ih => exact fun rest remains ends => Reading.bind_of_eq (ih.read remains ends)
  | product first second firstTakes secondTakes =>
      exact firstTakes.join rfl rfl (by simp [Category.first, Category.continuations]) secondTakes
        second.ne_nil
  | quotient first second firstTakes secondTakes =>
      exact firstTakes.join rfl rfl (by simp [Category.first, Category.continuations]) secondTakes
        second.ne_nil
  | ofPower only ih =>
      intro rest remains ends
      have unsigned := only.head?_ne_operator rfl
      rw [← List.head?_append_of_ne_nil _ only.ne_nil] at unsigned
      exact (Context.signed_read_of_head unsigned).trans (ih rest remains ends)
  | minus operand ih =>
      intro rest remains ends
      have read := ih.read remains ((Category.endsBefore_cons_iff [] operand.ne_nil).mp ends)
      rw [Context.onward, Reading.after_pure]
      exact context.operatorStep_of_read _ (by simp [remains]) read
  | plus operand ih =>
      intro rest remains ends
      have operandEnds := (Category.endsBefore_cons_iff [] operand.ne_nil).mp ends
      exact (Reading.bind_of_eq (context.advance_of_ne_nil (by simp [remains]))).trans
        (ih rest remains operandEnds)
  | ofPostfixed only ih =>
      intro rest remains ends
      have read := ih.read remains (ends.mono (by decide))
      refine (Reading.bind_of_eq read).trans ?_
      rw [Context.exponent_of_no_power]
      · rfl
      · rintro line tail rfl
        exact ends _ rfl (.inl (by simp [Category.first, Category.continuations]))
  | power base exponent baseTakes exponentTakes =>
      intro rest remains ends
      have exponentRead := exponentTakes.read remains
        ((Category.endsBefore_cons_iff _ exponent.ne_nil).mp ends)
      rw [List.append_assoc, List.cons_append]
      refine (Reading.bind_of_eq (baseTakes.read (List.cons_ne_nil _ _) ?_)).trans ?_
      · exact Category.endsBefore_cons (by simp [Category.continuations]) (by simp)
      · have step := context.operatorStep_of_read .exponentiation (by simp [remains]) exponentRead
        rw [Context.onward, Reading.after_pure]
        exact congrArg (Reading.after _) step
  | ofPrimary only ih => exact fun rest remains ends => Reading.bind_of_eq (ih.read remains ends)
  | @mediation levels scale left right t a b opening comma closing condition consequent alternative
      conditionTakes consequentTakes alternativeTakes =>
      intro rest remains ends
      have leftRead := consequentTakes.read_before_mark ',' comma
        (right ++ ⟨.mark ']', closing⟩ :: rest) (by simp [Category.continuations]) (by decide)
      have rightRead := alternativeTakes.read_before_mark ']' closing rest
        (by simp [Category.continuations]) (by decide)
      have step := context.mediationStep_of_read remains leftRead rightRead
      have conditionEnds : Category.primary.EndsBefore scale (⟨.mark '[', opening⟩ ::
          (left ++ ⟨.mark ',', comma⟩ :: (right ++ ⟨.mark ']', closing⟩ :: rest))) :=
        Category.endsBefore_cons (by simp [Category.continuations]) (by simp)
      have flat : scale ++ ⟨.mark '[', opening⟩ :: (left ++ ⟨.mark ',', comma⟩ ::
          (right ++ [⟨.mark ']', closing⟩])) ++ rest = scale ++ ⟨.mark '[', opening⟩ ::
          (left ++ ⟨.mark ',', comma⟩ :: (right ++ ⟨.mark ']', closing⟩ :: rest)) := by simp
      rw [flat, conditionTakes _ (List.cons_ne_nil _ _) conditionEnds, Context.onward,
        Context.mediations_cons step, Reading.after_after]
      rfl
  | number => exact fun rest remains _ => Reading.bind_of_eq (context.advance_of_ne_nil remains)
  | anonymous => exact fun rest remains _ => Reading.bind_of_eq (context.advance_of_ne_nil remains)
  | named =>
      intro rest remains ends
      refine (Reading.bind_of_eq (context.advance_of_ne_nil remains)).trans ?_
      rw [Context.argument_of_no_call]
      · rfl
      · rintro line tail rfl
        exact ends _ rfl (.inr ⟨rfl, _, _, rfl⟩)
  | @application levels name line word tree opening closing argument ih =>
      intro rest remains ends
      have read := ih.parenthesised closing remains
      have flat :
          ⟨.ident name, line⟩ :: ⟨.mark '(', opening⟩ :: (word ++ [⟨.mark ')', closing⟩]) ++ rest =
            ⟨.ident name, line⟩ :: ⟨.mark '(', opening⟩ :: (word ++ ⟨.mark ')', closing⟩ :: rest) := by
        simp
      rw [flat, Context.onward, Reading.after_pure]
      refine (Reading.bind_of_eq (context.advance_of_ne_nil (List.cons_ne_nil _ _))).trans ?_
      rw [Context.argument]
      exact congrArg (Reading.after _) (congrArg (Reading.after _) (Reading.bind_of_eq read))
  | @parenthesised levels word tree opening closing inner ih =>
      intro rest remains ends
      have flat : ⟨.mark '(', opening⟩ :: (word ++ [⟨.mark ')', closing⟩]) ++ rest =
          ⟨.mark '(', opening⟩ :: (word ++ ⟨.mark ')', closing⟩ :: rest) := by simp
      rw [flat, Context.onward, Reading.after_pure]
      exact ih.parenthesised closing remains

end EquationText
