import EquationText.Solver.Eliminate
import EquationText.Token.Name

/-! # Commands and the linear engine

The commands of documents switch reports on and off, report forms, and set the precision. Together
with solving and translating they make up the linear engine.
-/

namespace EquationText

namespace Solver

/-- The words that switch reports on and off. -/
def verboseFlag? (word : String) : Option Bool :=
  if ["", "on", "true", "1", "yes"].contains word then some true
  else if ["off", "false", "0", "no"].contains word then some false
  else none

/-- Switches reports on or off. -/
def setVerbose (payload : String) : Action Solver Unit :=
  match verboseFlag? (String.ofList (payload.toList.map Char.toLower)) with
  | some verbose => Action.modify fun solver => { solver with verbose }
  | none => Action.failWith (.solving (.verboseFlag payload))

/-- Reports the forms of names, up to the first that is no name. -/
def showNames (settings : Settings) : List (List Char) → Action Solver Unit
  | [] => pure ()
  | word :: rest => do
    let name := String.ofList word
    if isName word then
      let solver ← Action.get
      let text ← Action.ofExcept (solver.describe settings (.named name))
      Action.report .info .engine s!"{name} is {text}"
      showNames settings rest
    else Action.failWith (.solving (.showName name))

/-- Reports the forms of the names in a payload, which blanks or commas separate. -/
def showForms (settings : Settings) (payload : String) : Action Solver Unit :=
  match blankWords (payload.toList.map fun c => if c = ',' then ' ' else c) with
  | [] => Action.failWith (.solving .showNothing)
  | words => showNames settings words

/-- Sets the number of significant digits. -/
def setDigits (payload : String) : Action Solver Unit :=
  match readInteger payload.toList with
  | .error _ => Action.failWith (.solving (.digitsNumber payload))
  | .ok digits =>
    if 1 ≤ digits && digits ≤ 17 then
      Action.modify fun solver => { solver with precision := digits }
    else Action.failWith (.solving .digitsRange)

/-- Carries out a command. -/
def command (settings : Settings) (name payload : String) : Action Solver Unit :=
  let trimmed := String.ofList (trimBlanks payload.toList)
  match name with
  | "verbose" => setVerbose trimmed
  | "show" => showForms settings trimmed
  | "digits" => setDigits trimmed
  | _ => Action.failWith (.solving (.unknownCommand name))

/-- Closes the engine. -/
def close : Action Solver Unit := do
  Action.modify fun solver => { solver with closed := true }
  let solver ← Action.get
  Action.report .debug .engine s!"engine closed with {solver.solved.length} solved variable(s)"

end Solver

/-- The engine that solves linear equations. -/
def linearEngine (settings : Settings) : Engine Solver Expr where
  hasRoom := Solver.hasRoom
  named := .named
  anonymous := .anonymous
  number := .number
  construct := Expr.ofOperands
  solve := Solver.solve settings
  command := Solver.command settings
  translate solver name := solver.translate settings name

end EquationText
