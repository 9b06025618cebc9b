import EquationText.CommandLine.Arguments
import EquationText.CommandLine.Help
import EquationText.File.Access
import EquationText.Log.Routing
import EquationText.Report

/-! # Running a command

A command checks what its arguments choose, configures the log, reads the document, opens the output
and carries the document out. It exits with one at the first of these steps that fails. Faults of
the document are shown with their place, after the output that comes before them has been written.
-/

namespace EquationText

/-- A fault that no exit code stands for. -/
inductive Escape
  | fault (cause : Cause)
  | encoding (fault : EncodingFault)
  | logFile (path : String) (fault : AccessFault)
deriving DecidableEq

/-- The text of a fault that no exit code stands for. -/
def Escape.message : Escape → String
  | .fault cause => cause.message
  | .encoding problem => problem.message
  | .logFile path problem => problem.messageFor path

/-- How a command ends. -/
inductive Ending
  | exit (code : Nat)
  | escaped (escape : Escape)
deriving DecidableEq

/-- What a command leaves behind besides files. -/
structure CommandResult where
  ending : Ending
  standardOutput : String
  standardError : String
deriving DecidableEq

namespace CommandResult

/-- A command that writes a text to the standard output and succeeds. -/
def shown (text : String) : CommandResult := ⟨.exit 0, text, ""⟩

/-- A command that writes a text to the standard error and succeeds. -/
def noted (text : String) : CommandResult := ⟨.exit 0, "", text ++ "\n"⟩

/-- A command that fails with a text on the standard error. -/
def refused (text : String) : CommandResult := ⟨.exit 1, "", text ++ "\n"⟩

/-- A command that ends with a fault that no exit code stands for. -/
def escaped (escape : Escape) : CommandResult := ⟨.escaped escape, "", ""⟩

end CommandResult

namespace Choices

/-- The largest number of significant digits. -/
def maxPrecision : Int := 17

/-- What is wrong with the values of choices, if anything is. -/
def objection? (choices : Choices) : Option String :=
  if choices.precision.any fun n => n < 1 || maxPrecision < n then
    some "Error: precision must be between 1 and 17"
  else if choices.maxStackDepth.any (· < 1) then
    some "Error: max stack depth must be a positive integer"
  else none

/-- The name of the document in the places of faults. -/
def documentName (choices : Choices) : String :=
  if choices.input = "" then "<stdin>" else choices.input

end Choices

/-- A document that has been carried out by a command: how it ended, its output, the entries up to
the end of the document, and those that follow. -/
structure Completed where
  result : Except Fault Unit
  output : String
  entries : List Entry
  closing : List Entry

/-- Carries out a document as the choices say. -/
def Choices.complete (settings : Settings) (choices : Choices) (document : String) : Completed :=
  let solver := Solver.start settings choices.debug choices.maxStackDepth choices.precision
  let (result, processed) :=
    (linearEngine settings).process settings choices.documentName document ⟨.start solver, #[]⟩
  let verdict : List Entry :=
    match result with
    | .error fault =>
      match fault.cause.code? with
      | some code => [⟨.debug, .cli, s!"fatal {code} in {choices.documentName}"⟩]
      | none => []
    | .ok _ => []
  let (_, closed) := Session.closeSolver ⟨processed.state, #[]⟩
  ⟨result, processed.state.output, processed.log.toList, verdict ++ closed.log.toList⟩

namespace Completed

/-- The log of a document that has been carried out. -/
def log (level : Level) (completed : Completed) : String :=
  logText level (completed.entries ++ completed.closing)

/-- What goes to the standard error: the log, with the reported fault at its place. -/
def diagnostics (level : Level) (name : String) (completed : Completed) : String :=
  let shown :=
    match completed.result with
    | .error fault => if fault.cause.isReported then fault.location name 1 ++ "\n" else ""
    | .ok _ => ""
  logText level completed.entries ++ shown ++ logText level completed.closing

/-- How the command ends. -/
def ending (completed : Completed) : Ending :=
  match completed.result with
  | .ok _ => .exit 0
  | .error fault => if fault.cause.isReported then .exit 1 else .escaped (.fault fault.cause)

end Completed

namespace FileAccess

variable {m : Type → Type} [Monad m] (files : FileAccess m)

/-- Adds a text to a file, unless the path is empty. -/
def appendTo (path text : String) : m (Except AccessFault Unit) :=
  if path = "" then return .ok () else files.append path text

/-- Gives a file a text, unless the path is empty. -/
def writeTo (path text : String) : m (Except AccessFault Unit) :=
  if path = "" then return .ok () else files.write path text

/-- Carries out a document that has been read, with the output open. -/
def deliver (settings : Settings) (choices : Choices) (document : String) : m CommandResult := do
  let completed := choices.complete settings document
  let _ ← files.writeTo choices.output completed.output
  let _ ← files.appendTo choices.logFile (completed.log choices.logLevel)
  return {
    ending := completed.ending
    standardOutput := if choices.output = "" then completed.output else ""
    standardError := completed.diagnostics choices.logLevel choices.documentName }

/-- Opens the log, reads the document, opens the output, and carries the document out. -/
def carryOut (settings : Settings) (choices : Choices) : m CommandResult := do
  match ← files.appendTo choices.logFile "" with
  | .error fault => return .escaped (.logFile choices.logFile fault)
  | .ok () => do
    let document ←
      if choices.input = "" then files.readStandardInput else files.readDocument choices.input
    match document with
    | .error (.access fault) => return .refused s!"{choices.documentName}: {fault.message}"
    | .error (.encoding fault) => return .escaped (.encoding fault)
    | .ok text => do
      match ← files.writeTo choices.output "" with
      | .error fault => return .refused s!"{choices.output}: {fault.message}"
      | .ok () => files.deliver settings choices text

/-- Runs the command that is given by its arguments. -/
def runCommand (settings : Settings) (arguments : List String) : m CommandResult :=
  match readArguments arguments with
  | .error fault =>
    return ⟨.exit 1, "", usageText ++ s!"{programName}: error: {fault.message}\n"⟩
  | .ok .help => return .shown (helpText settings)
  | .ok (.run choices) =>
    if choices.version then return .noted s!"Package: {programName} {programVersion}"
    else
      match choices.objection? with
      | some objection => return .refused objection
      | none => files.carryOut settings choices

end FileAccess

end EquationText
