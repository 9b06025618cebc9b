import EquationText.Token

/-! # Reading tokens into programs

An expression is read into a program for a stack machine: operands push a value, and operators
replace their operands by a value. A reading gives the instructions found so far, and then either
a fault or the tokens that are left.
-/

namespace EquationText

/-- One step in building an expression on a stack of operands. -/
inductive Instruction
  | named (name : String)
  | anonymous
  | number (value : Double)
  | apply (operator : Operator)
deriving DecidableEq

/-- The instructions found in a stretch of tokens, and how reading it ended. -/
structure Reading (α : Type) where
  program : List Instruction
  outcome : Except Fault α

namespace Reading

variable {α β : Type}

instance : Monad Reading where
  pure a := ⟨[], .ok a⟩
  bind first next :=
    match first.outcome with
    | .ok a => ⟨first.program ++ (next a).program, (next a).outcome⟩
    | .error fault => ⟨first.program, .error fault⟩

/-- Adds an instruction. -/
def emit (instruction : Instruction) : Reading Unit := ⟨[instruction], .ok ()⟩

/-- Ends the reading with a fault. -/
def fail (fault : Fault) : Reading α := ⟨[], .error fault⟩

theorem bind_outcome_ok {first : Reading α} {next : α → Reading β} {b : β}
    (ok : (first >>= next).outcome = .ok b) :
    ∃ a, first.outcome = .ok a ∧ (next a).outcome = .ok b := by
  simp only [bind] at ok
  split at ok
  · rename_i a firstOk
    exact ⟨a, firstOk, ok⟩
  · cases ok

theorem pure_outcome_ok {a b : α} (ok : (pure a : Reading α).outcome = .ok b) : a = b := by
  cases ok
  rfl

end Reading

/-- What reading a statement needs besides its tokens: the settings, and how the scan of the document
ended. -/
structure Context where
  settings : Settings
  ending : Except Fault Nat

namespace Context

variable (context : Context)

/-- The line of the next token, or the last line of the document. -/
def lineOf : List Token → Nat
  | token :: _ => token.line
  | [] => match context.ending with
    | .ok line => line
    | .error _ => 0

/-- How the next token is quoted in messages. -/
def shown : List Token → String
  | token :: _ => token.lexeme.shown context.settings
  | [] => endOfInputText

/-- Ends the reading with a fault at the next token. -/
def refuse {α : Type} (fault : ReadingFault) (tokens : List Token) : Reading α :=
  .fail ((Cause.reading fault).onLine (context.lineOf tokens))

/-- Moves to the tokens after the one just read. Where the scan of the document ended with a fault,
it is met on moving past the last token. -/
def advance (rest : List Token) : Reading (List Token) :=
  match rest, context.ending with
  | [], .error fault => .fail fault
  | _, _ => pure rest

theorem advance_outcome_ok {rest tokens : List Token}
    (ok : (context.advance rest).outcome = .ok tokens) : tokens = rest := by
  unfold advance at ok
  split at ok
  · cases ok
  · exact (Reading.pure_outcome_ok ok).symm

/-- Moves past a mark that has to come next. -/
def expectMark (sign : Char) (tokens : List Token) : Reading (List Token) :=
  match tokens with
  | ⟨.mark found, _⟩ :: rest =>
    if found = sign then context.advance rest
    else context.refuse (.missing sign.toString (context.shown tokens)) tokens
  | _ => context.refuse (.missing sign.toString (context.shown tokens)) tokens

theorem expectMark_outcome_ok {sign : Char} {tokens rest : List Token}
    (ok : (context.expectMark sign tokens).outcome = .ok rest) : rest.length < tokens.length := by
  unfold expectMark at ok
  split at ok
  · split at ok
    · simp [context.advance_outcome_ok ok]
    · cases ok
  · cases ok

end Context

/-- A part of the grammar: a reading of tokens that takes one at least. -/
structure Production where
  read : List Token → Reading (List Token)
  shortens : ∀ tokens rest, (read tokens).outcome = .ok rest → rest.length < tokens.length

end EquationText
