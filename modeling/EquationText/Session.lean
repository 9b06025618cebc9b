import EquationText.Engine
import EquationText.Grammar.Reading
import EquationText.Stack

/-! # Sessions

A session is an engine at work: its state, the operand stack on which statements are built, the
statement that is open, and the text written so far. Building pushes operands and applies operators;
a finished statement is handed to the engine, and the stack is cleared after it in any case.
-/

namespace EquationText

/-- The state of a session with an engine state `σ` and operand values `ν`. -/
structure Session (σ ν : Type) where
  engine : σ
  stack : OperandStack ν
  /-- The operator that built the value on top of the stack, if one did. -/
  lastOperator : Option Operator
  phase : Phase
  /-- The number of statements carried out. -/
  statements : Nat
  output : String

namespace Session

variable {σ ν : Type}

/-- A session that has done nothing yet. -/
def start (engine : σ) : Session σ ν := ⟨engine, .empty, none, .idle, 0, ""⟩

/-- The session ready for another document: the engine and its stack stay as they are. -/
def forDocument (session : Session σ ν) : Session σ ν :=
  { session with lastOperator := none, phase := .idle, statements := 0, output := "" }

/-- The session without operands. -/
def clearOperands (session : Session σ ν) : Session σ ν :=
  { session with stack := .empty, lastOperator := none }

/-- The session without an open statement. -/
def reset (session : Session σ ν) : Session σ ν := { session.clearOperands with phase := .idle }

/-- The value on the stack when it is the only one. -/
def result? (session : Session σ ν) : Option ν :=
  match session.stack.topFirst with
  | [value] => some value
  | _ => none

/-- Writes literal text. -/
def writeText (raw : String) : Action (Session σ ν) Unit :=
  Action.modify fun session => { session with output := session.output ++ raw }

/-- Opens a statement. -/
def begin : Action (Session σ ν) Unit := do
  let session ← Action.get
  if session.phase = .idle then Action.set { session with phase := .accumulating }
  else Action.failWith (.reading (.statementOpen session.phase))

/-- An action of the engine. -/
def onEngine {α : Type} (action : Action σ α) : Action (Session σ ν) α :=
  action.within (·.engine) fun engine session => { session with engine }

end Session

namespace Engine

variable {σ ν : Type} (engine : Engine σ ν)

/-! ## Building -/

/-- Stops unless the stack has room for some more values. -/
def ensureRoom (extra : Nat) : Action (Session σ ν) Unit := do
  let session ← Action.get
  if engine.hasRoom session.engine ((session.stack.depth + extra : Nat) : Int) then pure ()
  else Action.failWith .stackFull

/-- Pushes an operand; the stack has to have room for `extra` values. -/
def pushOperand (extra : Nat) (value : ν) : Action (Session σ ν) Unit := do
  engine.ensureRoom extra
  Action.modify fun session =>
    { session with stack := session.stack.push value, lastOperator := none }

/-- Pushes a named unknown. -/
def pushNamed (name : String) : Action (Session σ ν) Unit :=
  engine.pushOperand 2 (engine.named name)

/-- Pushes a new unnamed unknown. -/
def pushAnonymous : Action (Session σ ν) Unit := engine.pushOperand 1 engine.anonymous

/-- Pushes a number. -/
def pushNumber (value : Double) : Action (Session σ ν) Unit :=
  engine.pushOperand 2 (engine.number value)

/-- Replaces the operands of an operator by the value it builds. -/
def apply (operator : Operator) : Action (Session σ ν) Unit := do
  engine.ensureRoom 1
  let session ← Action.get
  if session.stack.depth < operator.arity then
    Action.failWith (.operands (.operator operator session.stack.depth))
  else do
    let (operands, stack) ← Action.ofExcept (session.stack.pop operator.arity)
    let value ← Action.ofExcept (engine.construct operator operands)
    Action.set { session with stack := stack.push value, lastOperator := some operator }

/-- Applies an operator that has to be a sign. -/
def applyUnary (operator : Operator) : Action (Session σ ν) Unit :=
  if operator = .negation then engine.apply operator
  else Action.failWith (.usage (.wrongArity operator 1))

/-- Applies an operator that has to take two operands. -/
def applyBinary (operator : Operator) : Action (Session σ ν) Unit :=
  if operator.isInfixed || operator = .application then engine.apply operator
  else Action.failWith (.usage (.wrongArity operator 2))

/-- Applies an operator that has to take three operands. -/
def applyTernary (operator : Operator) : Action (Session σ ν) Unit :=
  if operator = .mediation then engine.apply operator
  else Action.failWith (.usage (.wrongArity operator 3))

/-- Carries out one instruction. -/
def execute : Instruction → Action (Session σ ν) Unit
  | .named name => engine.pushNamed name
  | .anonymous => engine.pushAnonymous
  | .number value => engine.pushNumber value
  | .apply operator => engine.apply operator

/-- Carries out a program. -/
def executeAll : List Instruction → Action (Session σ ν) Unit
  | [] => pure ()
  | instruction :: rest => do
    engine.execute instruction
    executeAll rest

/-! ## Statements -/

/-- Hands the equation on the stack to the engine, counts it, and gives what it determined. -/
def submitEquation : Action (Session σ ν) (List Binding) := do
  let session ← Action.get
  match session.result?, session.lastOperator with
  | some value, some .equation => do
    Action.set { session with phase := .equation }
    let bindings ← Session.onEngine (engine.solve value)
    Action.modify fun session => { session with statements := session.statements + 1 }
    let session ← Action.get
    if !bindings.isEmpty then
      Action.report .debug .dispatcher
        s!"statement {session.statements} bound {quotedBindings bindings}"
    return bindings
  | _, _ => Action.failWith (.reading .malformedStatement)

/-- Ends a statement with the equation on the stack. -/
def finishEquation : Action (Session σ ν) (List Binding) :=
  engine.submitEquation.andFinally Session.reset

/-- Hands a command to the engine and counts it. -/
def submitCommand (name payload : String) : Action (Session σ ν) Unit := do
  Action.modify fun session => { session with phase := .command }
  Action.report .debug .dispatcher s!"command {name} {quoted payload}"
  Session.onEngine (engine.command name payload)
  Action.modify fun session => { session with statements := session.statements + 1 }

/-- Carries out a command as a statement of its own. -/
def dispatchCommand (name payload : String) : Action (Session σ ν) Unit :=
  (engine.submitCommand name payload).andFinally Session.reset

/-! ## Writing -/

/-- The text that replaces a reference: its value, or its name when it has none. -/
def translation (name : String) : Action (Session σ ν) String := do
  let session ← Action.get
  let text ← Action.ofExcept (engine.translate session.engine name)
  return text.getD name

/-- Writes a reference. -/
def writeReference (name : String) : Action (Session σ ν) Unit := do
  let text ← engine.translation name
  Session.writeText text

end Engine

end EquationText
