import EquationText.Grammar.Expression
import EquationText.Token.Scan

/-! # The steps of a document

A document is carried out in steps: literal text and references are written, equations and commands
are handed to an engine. A document that cannot be read to its end has the steps before the fault
and then a step that stops with it.
-/

namespace EquationText

/-- One step in carrying out a document. -/
inductive Step
  /-- Literal text to write. -/
  | text (raw : String)
  /-- A reference to write. -/
  | reference (name : String)
  /-- An equation that starts on a line, as the program that builds it. -/
  | equation (line : Nat) (program : List Instruction)
  /-- A command on a line. -/
  | command (line : Nat) (name payload : String)
  /-- A statement that cannot be read to its end: whether its expressions were begun, the part of
  its program that was found, and the fault. -/
  | unfinished (line : Nat) (begun : Bool) (program : List Instruction) (fault : Fault)
  /-- A fault outside of statements. -/
  | halt (fault : Fault)
deriving DecidableEq

namespace Context

variable (context : Context)

/-- The second side of an equation, from after the equals sign, and the end of the equation. -/
def rightSide (side : Production) (rest : List Token) : Reading (List Token) := do
  let tokens ← context.advance rest
  let tokens ← side.read tokens
  match tokens with
  | ⟨.operator '=', _⟩ :: _ => context.refuse .secondEquals tokens
  | _ => do
    Reading.emit (.apply .equation)
    return tokens

/-- An equation between two sides. -/
def equation (side : Production) (tokens : List Token) : Reading (List Token) := do
  let tokens ← side.read tokens
  match tokens with
  | ⟨.operator '=', _⟩ :: rest => context.rightSide side rest
  | _ => context.refuse (.missing "=" (context.shown tokens)) tokens

/-- Whether a statement may end before these tokens. -/
def endsStatement : List Token → Bool
  | ⟨.statementEnd, _⟩ :: _ | ⟨.blockClose, _⟩ :: _ => true
  | _ => false

/-- The step of the statement at the start of some tokens, and what follows it unless the statement
cannot be read to its end. -/
def statement (side : Production) (tokens : List Token) : Step × Option (List Token) :=
  match tokens with
  | ⟨.command name payload, line⟩ :: rest =>
    match (context.advance rest).outcome with
    | .ok remaining => (.command line name payload, some remaining)
    | .error fault => (.unfinished line false [] fault, none)
  | _ =>
    let reading := context.equation side tokens
    match reading.outcome with
    | .ok remaining => (.equation (context.lineOf tokens) reading.program, some remaining)
    | .error fault => (.unfinished (context.lineOf tokens) true reading.program fault, none)

theorem rightSide_length_lt {side : Production} {rest remaining : List Token}
    (ok : (context.rightSide side rest).outcome = .ok remaining) :
    remaining.length < rest.length := by
  obtain ⟨tokens, advanced, ok⟩ := Reading.bind_outcome_ok ok
  obtain ⟨after, sideRead, ok⟩ := Reading.bind_outcome_ok ok
  have shorter := side.shortens _ _ sideRead
  rw [context.advance_outcome_ok advanced] at shorter
  split at ok
  · cases ok
  · obtain ⟨_, _, ok⟩ := Reading.bind_outcome_ok ok
    rw [← Reading.pure_outcome_ok ok]
    exact shorter

theorem equation_length_lt {side : Production} {tokens remaining : List Token}
    (ok : (context.equation side tokens).outcome = .ok remaining) :
    remaining.length < tokens.length := by
  obtain ⟨after, sideRead, ok⟩ := Reading.bind_outcome_ok ok
  have shorter := side.shortens _ _ sideRead
  split at ok
  · have := context.rightSide_length_lt ok
    simp only [List.length_cons] at shorter
    omega
  · cases ok

/-- A statement takes one token at least. -/
theorem statement_length_lt {side : Production} {tokens remaining : List Token}
    (read : (context.statement side tokens).2 = some remaining) :
    remaining.length < tokens.length := by
  unfold statement at read
  split at read
  · split at read
    · rename_i advanced
      cases read
      simp [context.advance_outcome_ok advanced]
    · cases read
  · simp only at read
    split at read
    · rename_i equationRead
      cases read
      exact context.equation_length_lt equationRead
    · cases read

/-- The steps of a document from some of its tokens on, outside of blocks or inside one; `found`
holds the steps so far, last first. -/
def stepsFrom (side : Production) (inside : Bool) (found : List Step) (tokens : List Token) :
    List Step :=
  if inside then
    match tokens with
    | ⟨.blockClose, _⟩ :: rest =>
      match (context.advance rest).outcome with
      | .ok _ => stepsFrom side false found rest
      | .error fault => (.halt fault :: found).reverse
    | ⟨.statementEnd, _⟩ :: rest =>
      match (context.advance rest).outcome with
      | .ok _ => stepsFrom side true found rest
      | .error fault => (.halt fault :: found).reverse
    | tokens =>
      match _read : context.statement side tokens with
      | (step, none) => (step :: found).reverse
      | (step, some remaining) =>
        if endsStatement remaining then stepsFrom side true (step :: found) remaining
        else
          let fault := ReadingFault.unexpected (context.shown remaining)
          (.halt ((Cause.reading fault).onLine (context.lineOf remaining)) :: step :: found).reverse
  else
    match tokens with
    | [] => found.reverse
    | token :: rest =>
      match token.lexeme with
      | .text raw =>
        match (context.advance rest).outcome with
        | .ok _ => stepsFrom side false (.text raw :: found) rest
        | .error fault => (.halt fault :: .text raw :: found).reverse
      | .reference name =>
        match (context.advance rest).outcome with
        | .ok _ => stepsFrom side false (.reference name :: found) rest
        | .error fault => (.halt fault :: .reference name :: found).reverse
      | .blockOpen =>
        match (context.advance rest).outcome with
        | .ok _ => stepsFrom side true found rest
        | .error fault => (.halt fault :: found).reverse
      | lexeme =>
        let fault := ReadingFault.unexpected (lexeme.shown context.settings)
        (.halt ((Cause.reading fault).onLine token.line) :: found).reverse
termination_by tokens.length
decreasing_by
  all_goals first
    | exact context.statement_length_lt (by rw [_read])
    | simp

/-- The steps of a scanned document. -/
def steps (tokens : List Token) : List Step :=
  match tokens, context.ending with
  | [], .error fault => [.halt fault]
  | _, _ =>
    context.stepsFrom (context.expression (context.operand context.settings.nestingLevels)) false []
      tokens

end Context

/-- The steps of a document. -/
def documentSteps (settings : Settings) (text : String) : List Step :=
  let scanned := scan settings text
  Context.steps ⟨settings, scanned.ending⟩ scanned.tokens

end EquationText
