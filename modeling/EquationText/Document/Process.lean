import EquationText.Grammar.Document
import EquationText.Session

/-! # Carrying out documents

A document is carried out step by step. The output written before a fault stays, and a reported
fault leaves its statement with the line of the statement unless it has one of its own.
-/

namespace EquationText

namespace Engine

variable {σ ν : Type} (engine : Engine σ ν)

/-- A statement that starts on a line: a reported fault is placed and closes the statement. -/
def inStatement {α : Type} (line : Nat) (action : Action (Session σ ν) α) :
    Action (Session σ ν) α :=
  action.onFault fun fault session =>
    if fault.cause.isReported then (fault.placedAt line, session.reset) else (fault, session)

/-- Carries out one step of a document. -/
def perform : Step → Action (Session σ ν) Unit
  | .text raw => Session.writeText raw
  | .reference name => engine.writeReference name
  | .equation line program =>
    inStatement line do
      Session.begin
      engine.executeAll program
      let _ ← engine.finishEquation
      pure ()
  | .command line name payload => inStatement line (engine.dispatchCommand name payload)
  | .unfinished line begun program fault =>
    inStatement line do
      if begun then
        Session.begin
        engine.executeAll program
      Action.fail fault
  | .halt fault => Action.fail fault

/-- Carries out the steps of a document up to the first fault. -/
def performAll : List Step → Action (Session σ ν) Unit
  | [] => pure ()
  | step :: rest => do
    engine.perform step
    performAll rest

/-- Carries out a document; the line count of its statements goes to the log. -/
def process (settings : Settings) (filename text : String) : Action (Session σ ν) Unit := do
  Action.modify Session.forDocument
  engine.performAll (documentSteps settings text)
  let session ← Action.get
  Action.report .debug .api s!"{filename}: {session.statements} statement(s) processed"

end Engine

end EquationText
