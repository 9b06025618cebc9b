import EquationText.Document.Process
import EquationText.Solver.Command

/-! # Running documents

A run carries out one document on a linear engine of its own, and closes the engine at the end. Its
report says whether the document was accepted, and gives the output, the fault and the solved names.
-/

namespace EquationText

/-- What a run of a document gives. -/
structure Report where
  ok : Bool
  output : String := ""
  error : Option String := none
  code : Option String := none
  bindings : List Binding := []
deriving DecidableEq

namespace Report

/-- The text that shows a report. -/
def toText (report : Report) : String :=
  if report.ok then
    s!"PreprocessResult(ok=True, output={quoted report.output}, bindings={quotedBindings report.bindings})"
  else
    s!"PreprocessResult(ok=False, code={quotedOption report.code}, error={quotedOption report.error})"

/-- The names of the fields that a report has, in order: a fault and bindings only where there are
some. -/
def fields (report : Report) : List String :=
  ["ok", "output"] ++ (if report.error.isSome then ["error"] else []) ++
    (if report.code.isSome then ["code"] else []) ++
    (if report.bindings.isEmpty then [] else ["bindings"])

end Report

/-- A session of the linear engine. -/
abbrev SolverSession : Type := Session Solver Expr

/-- Closes the engine of a session; its stack is cleared. -/
def Session.closeSolver : Action SolverSession Unit := do
  Action.modify fun session => { session with stack := .empty }
  Session.onEngine Solver.close

/-- What is left after a document has been carried out on an engine that is closed then: how it
ended, the session, and the log. -/
structure Preprocessed where
  result : Except Fault Unit
  session : SolverSession
  log : Array Entry

/-- Carries out a document on a linear engine of its own. -/
def preprocess (settings : Settings) (verbose : Bool) (filename text : String) : Preprocessed :=
  let start : Traced SolverSession := ⟨.start (Solver.start settings verbose none none), #[]⟩
  let (result, processed) := (linearEngine settings).process settings filename text start
  let (_, closed) := Session.closeSolver processed
  ⟨result, closed.state, closed.log⟩

/-- The report of a run. A fault that is not reported has no report. -/
def Preprocessed.report (settings : Settings) (filename : String) (preprocessed : Preprocessed) :
    Except Fault Report := do
  let bindings ←
    match preprocessed.session.engine.bindings settings with
    | .ok bindings => pure bindings
    | .error cause => throw cause.unplaced
  match preprocessed.result with
  | .ok _ => return { ok := true, output := preprocessed.session.output, bindings }
  | .error fault =>
    return {
      ok := false, output := preprocessed.session.output
      error := some (fault.location filename 1), code := fault.cause.code?, bindings }

/-- Runs a document and gives its report and its log. -/
def run (settings : Settings) (verbose : Bool) (filename text : String) :
    Except Fault Report × Array Entry :=
  let preprocessed := preprocess settings verbose filename text
  let report :=
    match preprocessed.result with
    | .error fault =>
      if fault.cause.isReported then preprocessed.report settings filename else .error fault
    | .ok _ => preprocessed.report settings filename
  (report, preprocessed.log)

end EquationText
