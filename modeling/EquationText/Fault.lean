import EquationText.Operator
import EquationText.Text.Numeral
import EquationText.Text.Quoted

/-! # Faults

Everything that stops the work on a document, by its cause. Reading, solving, missing operands and
a full stack are *reported* faults: they carry a code and the line at which they arose. The others
mark misuse of the library or a limit of the number formats and escape as they are.
-/

namespace EquationText

/-- Where a statement stands between its beginning and its end. -/
inductive Phase
  | idle
  | accumulating
  | equation
  | command
deriving DecidableEq, Inhabited

def Phase.name : Phase → String
  | idle => "idle"
  | accumulating => "accumulating"
  | equation => "equation"
  | command => "command"

/-- A text that the grammar of documents does not allow. -/
inductive ReadingFault
  | strayCharacter (c : Char)
  | unterminatedBlock
  | missingCommandName
  | unexpected (found : String)
  | missing (wanted found : String)
  | secondEquals
  | tooDeep (limit : Option Int)
  | statementOpen (phase : Phase)
  | malformedStatement
deriving DecidableEq

/-- What an inexact operation is called in messages. -/
inductive Computation
  | exponentiation
  | function (name : String)
deriving DecidableEq

/-- An equation or a command that cannot be carried out. -/
inductive SolvingFault
  | numberRange
  | equationAsValue
  | illFormed
  | productOfUnknowns
  | unknownDivisor
  | divisionByZero
  | unknownBase
  | unknownExponent
  | undefinedResult (computation : Computation)
  | resultRange (computation : Computation)
  | malformedApplication
  | unknownFunction (name : String)
  | functionOfUnknown (name : String)
  | notAnEquation
  | redundant
  | inconsistent
  | valueRange (name : String)
  | unknownCommand (name : String)
  | verboseFlag (payload : String)
  | showNothing
  | showName (name : String)
  | digitsNumber (payload : String)
  | digitsRange
  | refusedCommand
deriving DecidableEq

/-- An operand stack that holds too little. -/
inductive OperandFault
  | operator (operator : Operator) (held : Nat)
  | insertion (depth : Int) (held : Nat)
  | removal (count : Int) (held : Nat)
  | empty
deriving DecidableEq

/-- A value that an operation does not take. -/
inductive UsageFault
  | unknownOperator (name : String)
  | operandCount (operator : Operator) (given : Nat)
  | wrongArity (operator : Operator) (wanted : Nat)
  | missingPrecision
  | hugePrecision
  | endlessPrecision
  | integerText (text : String) (fault : IntegerFault)
  | doubleText (text : String)
deriving DecidableEq

/-- Why work stops. -/
inductive Cause
  | reading (fault : ReadingFault)
  | solving (fault : SolvingFault)
  | operands (fault : OperandFault)
  | stackFull
  | usage (fault : UsageFault)
  | unreadableCharacter
  | modulusRange
  | noPivot
deriving DecidableEq

/-- A cause and, once it is known, the line of the document at which it arose. -/
structure Fault where
  cause : Cause
  line : Option Nat
deriving DecidableEq

def ReadingFault.message : ReadingFault → String
  | strayCharacter c => s!"unexpected character {quoted c.toString}"
  | unterminatedBlock => "unterminated equation block"
  | missingCommandName => "command name expected"
  | unexpected found => s!"unexpected {found}"
  | missing wanted found => s!"'{wanted}' expected before {found}"
  | secondEquals => "one '=' per statement"
  | tooDeep (some limit) => s!"expression too deeply nested (>{limit} levels)"
  | tooDeep none => "expression too deeply nested"
  | statementOpen phase => s!"statement started while {phase.name}"
  | malformedStatement => "malformed statement: equation expected"

def Computation.name : Computation → String
  | exponentiation => "exponentiation"
  | function name => s!"function {name}"

def SolvingFault.message : SolvingFault → String
  | numberRange => "number out of range"
  | equationAsValue => "equation used as a value"
  | illFormed => "cannot evaluate BinaryOp"
  | productOfUnknowns => "both in product not a number"
  | unknownDivisor => "divisor is not a number"
  | divisionByZero => "division by zero"
  | unknownBase => "exponent base not a number"
  | unknownExponent => "exponent not a number"
  | undefinedResult computation => s!"{computation.name} is undefined here"
  | resultRange computation => s!"{computation.name} out of range"
  | malformedApplication => "function not well formed"
  | unknownFunction name => s!"function {name} not defined"
  | functionOfUnknown name => s!"function {name} not applied to a number"
  | notAnEquation => "not an equation"
  | redundant => "redundant equation"
  | inconsistent => "inconsistent equation"
  | valueRange name => s!"value of {name} out of range"
  | unknownCommand name => s!"unknown command: {name}"
  | verboseFlag payload => s!"verbose expects on or off, got {quoted payload}"
  | showNothing => "show expects variable names"
  | showName name => s!"show: invalid variable name {quoted name}"
  | digitsNumber payload => s!"digits expects an integer, got {quoted payload}"
  | digitsRange => "digits must be between 1 and 17"
  | refusedCommand => "command failed"

def OperandFault.message : OperandFault → String
  | operator op held => s!"{op.name} needs {op.arity} operand(s), stack holds {held}"
  | insertion depth held => s!"cannot insert at depth {depth} in a stack of {held}"
  | removal count held => s!"need {count} operand(s), stack holds {held}"
  | empty => "stack is empty"

def IntegerFault.message (text : String) : IntegerFault → String
  | malformed => s!"invalid literal for int() with base 10: {quoted text}"
  | tooLong digits =>
    s!"Exceeds the limit ({maxIntegerDigits} digits) for integer string conversion: value has {digits} digits; use sys.set_int_max_str_digits() to increase the limit"

/-- What an operator of the given arity is called. -/
def arityWord : Nat → String
  | 1 => "a unary"
  | 2 => "a binary"
  | _ => "a ternary"

def UsageFault.message : UsageFault → String
  | unknownOperator name => s!"{quoted name} is not a valid NodeKind"
  | operandCount op given => s!"{op.name} takes {op.arity} operand(s), got {given}"
  | wrongArity op wanted => s!"{op.name} is not {arityWord wanted} operator"
  | missingPrecision => "Format specifier missing precision"
  | hugePrecision => "precision too big"
  | endlessPrecision => "Too many decimal digits in format string"
  | integerText text fault => fault.message text
  | doubleText text => s!"could not convert string to float: {quoted text}"

namespace Cause

/-- The text of a fault. -/
def message : Cause → String
  | reading fault => fault.message
  | solving fault => fault.message
  | operands fault => fault.message
  | stackFull => "Stack cannot grow"
  | usage fault => fault.message
  | unreadableCharacter => "'NoneType' object has no attribute 'group'"
  | modulusRange => "absolute value too large"
  | noPivot => "unsupported operand type(s) for *: 'NoneType' and 'NoneType'"

/-- The code of a reported fault; the other faults have none. -/
def code? : Cause → Option String
  | reading (.tooDeep _) => some "TOO_DEEP"
  | reading _ => some "PARSE_ERROR"
  | solving _ => some "SOLVE_ERROR"
  | operands _ => some "STACK_UNDERFLOW"
  | stackFull => some "STACK_OVERFLOW"
  | usage _ | unreadableCharacter | modulusRange | noPivot => none

/-- Whether the fault is reported with its place in the document. -/
def isReported (cause : Cause) : Bool := cause.code?.isSome

/-- The fault of a cause whose line is not known yet. -/
def unplaced (cause : Cause) : Fault := ⟨cause, none⟩

/-- The fault of a cause at a line. -/
def onLine (cause : Cause) (line : Nat) : Fault := ⟨cause, some line⟩

end Cause

namespace Fault

def message (fault : Fault) : String := fault.cause.message

/-- A reported fault placed at `line` unless it has a line already. -/
def placedAt (line : Nat) (fault : Fault) : Fault :=
  if fault.cause.isReported then ⟨fault.cause, some (fault.line.getD line)⟩ else fault

/-- The place and the text of a fault, as compilers write them. -/
def location (filename : String) (line : Nat) (fault : Fault) : String :=
  s!"{filename}:{fault.line.getD line}: {fault.message}"

end Fault

end EquationText
