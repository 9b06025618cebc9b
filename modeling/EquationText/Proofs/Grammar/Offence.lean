import EquationText.Proofs.Grammar.Foresight
import EquationText.Proofs.Grammar.Statement

/-! # Where reading fails

A statement is refused at the first token that no statement has after the ones before it, and a token further
where it is nested too deeply (`EquationText.Context.exists_offence`).
-/

namespace EquationText

variable {levels more : Nat} {passed tokens rest : List Token} {next : Token}

theorem ReadingFault.isLimit_reading (fault : ReadingFault) :
    (Cause.reading fault).isLimit = fault.isTooDeep := by
  cases fault <;> rfl

theorem nil_of_append_isPrefix {α : Type} {first : List α} {second only : α}
    (start : first ++ [second] <+: [only]) : first = [] := by
  simpa using start.length_le

namespace Context

variable {context : Context}

/-- An equation that is refused, but not for its nesting, is so with any more levels. -/
theorem equation_refused_of_le {fault : Fault} (le : levels ≤ more) (other : fault.cause.isLimit = false)
    (failed : (context.equation (context.production levels .expression) tokens).outcome = .error fault) :
    (context.equation (context.production more .expression) tokens).outcome = .error fault := by
  have within : (context.equation (context.production levels .expression) tokens).IsWithin
      (context.equation (context.production more .expression) tokens) :=
    equation_within (expression_within (operand_within context context.settings.maxStackDepth
      context.settings.maxNesting le)) tokens
  generalize context.equation (context.production more .expression) tokens = wider at within ⊢
  generalize context.equation (context.production levels .expression) tokens = reading at within failed
  cases within with
  | same => exact failed
  | cut limit =>
      cases failed
      rw [limit] at other
      cases other

end Context

/-! ## Statements -/

/-- Whether some tokens are the first ones of a statement: of an equation, or of a command, which is one
token. -/
def BeginsStatement (levels : Nat) (tokens : List Token) : Prop :=
  BeginsEquation levels tokens ∨ ∃ name payload line, tokens <+: [⟨.command name payload, line⟩]

/-- Whether some tokens are those of a whole statement. -/
def IsWholeStatement (levels : Nat) (tokens : List Token) : Prop :=
  (∃ tree, DerivesEquation levels tokens tree) ∨ ∃ name payload line, tokens = [⟨.command name payload, line⟩]

/-- Whether a statement is refused with some cause after the tokens `passed`, at the token `next`. It is
refused at the first token that no statement has there and that ends none there, at whatever nesting; where it
is nested too deeply, it is the last of the passed tokens with which no equation of the given levels begins,
while a deeper one does. -/
inductive IsOffence (levels : Nat) (passed : List Token) (next : Token) (cause : ReadingFault) : Prop
  | misplaced (grammatical : cause.isTooDeep = false) (begins : BeginsStatement levels passed)
    (refused : ∀ more, ¬ BeginsStatement more (passed ++ [next]))
    (unfinished : next.lexeme.endsStatement = true → ∀ more, ¬ IsWholeStatement more passed)
  | tooDeep (deep : cause.isTooDeep = true) (deeper : ∃ more, BeginsEquation more passed)
    (shorter : passed ≠ [] → BeginsEquation levels passed.dropLast) (refused : ¬ BeginsEquation levels passed)

namespace Context

variable {context : Context} {fault : Fault}

/-- An equation that is read leaves tokens that reading does not get past. -/
theorem equation_takes (lasts : context.Lasts tokens)
    (ok : (context.equation (context.production levels .expression) tokens).outcome = .ok rest) :
    ∃ word tree, tokens = word ++ rest ∧ DerivesEquation levels word tree ∧ EquationEndsBefore word rest ∧
      context.Lasts rest := by
  obtain ⟨_, _, word, tree, _, whole, derives, ends⟩ := (equation_builds context levels [] tokens).outcome rest ok
  refine ⟨word, tree, whole, derives, ends, ?_⟩
  have foreseen := equation_foreseen (production_foresees context levels) lasts
  cases foreseen with
  | taken word left alike =>
      cases (alike _ rfl).symm.trans ok
      exact left
  | ended ending failed => cases failed.symm.trans ok
  | refused passed others isAt stops start alike =>
      cases (alike _ (List.cons_ne_nil _ _) fun _ => rfl).symm.trans ok

/-- What the refusal of an equation is about: the end of the scan, or an offence. -/
theorem exists_offence (lasts : context.Lasts tokens)
    (noCommand : ∀ token ∈ tokens.head?, ∀ name payload, token.lexeme ≠ .command name payload)
    (failed : (context.equation (context.production levels .expression) tokens).outcome = .error fault) :
    context.ending = .error fault ∨ ∃ passed next others cause, tokens = passed ++ next :: others ∧
      cause.IsAt context.settings next ∧ IsOffence levels passed next cause ∧
      fault = (Cause.reading cause).onLine next.line := by
  have foreseen := equation_foreseen (production_foresees context levels) lasts
  -- An equation with these tokens would be read before the end of a statement.
  have accepted : ∀ {more word tree} (token : Token), DerivesEquation more word tree →
      token.lexeme.endsStatement = true →
      (context.equation (context.production more .expression) (word ++ [token])).outcome = .ok [token] :=
    fun token derives ends => congrArg Reading.outcome (derives.read context (List.cons_ne_nil _ _)
      (.of_endsStatement ((endsStatement_cons token []).trans ends)))
  cases foreseen with
  | taken word left alike =>
      rw [alike _ rfl] at failed
      cases failed
  | ended ending found =>
      rw [failed] at found
      cases found
      exact .inl ending
  | @refused passed next others cause isAt stops start alike =>
      rw [alike _ (List.cons_ne_nil _ _) fun _ => rfl] at failed
      cases failed
      refine .inr ⟨passed, next, others, cause, rfl, isAt, ?_, rfl⟩
      rw [List.nil_append] at stops
      cases deep : cause.isTooDeep with
      | true =>
          obtain ⟨more, _, begins⟩ := stops.deeper
          refine .tooDeep deep ⟨more, begins⟩ stops.shorter ?_
          rintro ⟨rest, tree, derives⟩
          have read := accepted ⟨.blockClose, 0⟩ derives rfl
          rw [List.append_assoc, alike _ (by simp) (by simp [deep])] at read
          cases read
      | false =>
          -- Whatever comes after the token, and however many levels there are.
          have refusedWith : ∀ more others,
              (context.equation (context.production (max levels more) .expression)
                (passed ++ next :: others)).outcome =
                .error ((Cause.reading cause).onLine next.line) := fun more others =>
            equation_refused_of_le (Nat.le_max_left levels more)
              ((ReadingFault.isLimit_reading cause).trans deep)
              (alike (next :: others) (List.cons_ne_nil _ _) fun _ => rfl)
          refine .misplaced deep (.inl (stops.within deep)) (fun more => ?_) fun ends more => ?_
          · rintro (⟨rest, tree, derives⟩ | ⟨name, payload, line, start⟩)
            · have read := accepted ⟨.blockClose, 0⟩ (derives.mono (Nat.le_max_right levels more)) rfl
              rw [List.append_assoc, List.append_assoc, List.singleton_append, refusedWith] at read
              cases read
            · obtain rfl := nil_of_append_isPrefix start
              obtain rfl : next = ⟨.command name payload, line⟩ := (List.cons_prefix_cons.mp start).1
              exact noCommand _ rfl name payload rfl
          · rintro (⟨tree, derives⟩ | ⟨name, payload, line, rfl⟩)
            · have read := accepted next (derives.mono (Nat.le_max_right levels more)) ends
              rw [refusedWith] at read
              cases read
            · exact noCommand _ rfl name payload rfl

end Context

end EquationText
