import EquationText.Proofs.Document.Discipline
import EquationText.Report

/-! # How documents end

With the usual marks, a tolerance and a usual precision, a document is accepted or stops with a reported
fault that has a line, and leaves no operands; a run gives a report. There are two exceptions
(`EquationText.document_conclusion`): a modulus beyond the range of doubles has no report, and neither has a
letter or a digit that starts no name and no numeral, which may also leave operands.
-/

namespace EquationText

open Cause (IsOrdinary)

variable {settings : Settings}

/-- Whether a fault is one of the two kinds that escape from a document: a modulus beyond the range of
doubles, or the end of a scan at a character that cannot be read. -/
def Escapes (settings : Settings) (text : String) (fault : Fault) : Prop :=
  fault.cause = .modulusRange ∨
    fault = Cause.unreadableCharacter.unplaced ∧ (scan settings text).ending = .error fault ∧
      ∃ left, left <:+ text.toList ∧ IsUnreadable left

/-- How a document ends on a session that holds no operands. -/
theorem process_concludes (positive : 0 < settings.cutoff) (filename text : String)
    {before : Traced SolverSession} (empty : before.state.stack = .empty)
    (usual : Solver.IsUsualPrecision before.state.engine.precision) :
    Concludes settings text (fun solver => Solver.IsUsualPrecision solver.precision) IsOrdinary
      ((linearEngine settings).process settings filename text before) := by
  have proper := linearEngine_isProper_of_guards (Solver.guards_ordinary positive) fun _ ordinary => ordinary
  let start : Traced SolverSession := ⟨before.state.forDocument, before.log⟩
  have ready : start.state.IsReady := ⟨empty, rfl⟩
  have holds : Solver.IsUsualPrecision start.state.engine.precision := usual
  have concludes := (Engine.performAll_concludes proper ready holds (documentSteps_isSound settings text)).1
  obtain ⟨result, state⟩ := Engine.process_eq (linearEngine settings) settings filename text before
  refine ⟨?_, ?_, ?_⟩
  · rw [state]
    exact concludes.kept
  · rw [result, state]
    exact concludes.ok
  · rw [result, state]
    exact concludes.error

theorem Concludes.escapes {text : String} {S : Solver → Prop}
    {result : Except Fault Unit × Traced SolverSession}
    (concludes : Concludes settings text S IsOrdinary result) (marks : settings.HasUsualMarks) {fault : Fault}
    (failed : result.1 = .error fault) :
    fault.cause.isReported = true ∧ fault.line.isSome = true ∨ Escapes settings text fault := by
  rcases concludes.error fault failed with ⟨rfl, ending, left, starts, within⟩ | ⟨ordinary, _, placed⟩
  · exact .inr (.inr ⟨rfl, ending, left, within marks, starts⟩)
  · cases reported : fault.cause.isReported with
    | true => exact .inl ⟨rfl, placed reported⟩
    | false => exact .inr (.inl (ordinary.eq_modulusRange reported))

/-- The session that a run starts with. -/
def startOfRun (settings : Settings) (verbose : Bool) : Traced SolverSession :=
  ⟨.start (.start settings verbose none none), #[]⟩

/-- With its solved names bound a run has a report. -/
theorem exists_report {preprocessed : Preprocessed} (filename : String) {bindings : List Binding}
    (bound : preprocessed.session.engine.bindings settings = .ok bindings) :
    ∃ report, preprocessed.report settings filename = .ok report := by
  unfold Preprocessed.report
  rw [bound]
  rcases preprocessed.result with fault | _
  · exact ⟨_, rfl⟩
  · exact ⟨_, rfl⟩

/-- A document is accepted or stops with a reported fault that has a line, and leaves no operands, and a run
of it gives a report, unless a fault escapes; only one at a character that cannot be read leaves operands. -/
theorem document_conclusion (marks : settings.HasUsualMarks) (positive : 0 < settings.cutoff)
    (usual : Solver.IsUsualPrecision settings.precision) (filename text : String) :
    (∀ before : Traced SolverSession, before.state.stack = .empty →
      Solver.IsUsualPrecision before.state.engine.precision →
      let result := (linearEngine settings).process settings filename text before
      (∀ fault, result.1 = .error fault →
        fault.cause.isReported = true ∧ fault.line.isSome = true ∨ Escapes settings text fault) ∧
      (result.1 ≠ .error Cause.unreadableCharacter.unplaced → result.2.state.stack = .empty)) ∧
    ∀ verbose, (∃ report, (run settings verbose filename text).1 = .ok report) ∨
      ∃ fault, (run settings verbose filename text).1 = .error fault ∧ Escapes settings text fault := by
  refine ⟨fun before empty usual => ?_, fun verbose => ?_⟩
  · have concludes := process_concludes positive filename text empty usual
    refine ⟨fun fault => concludes.escapes marks, fun readable => ?_⟩
    rcases failed : ((linearEngine settings).process settings filename text before).1 with fault | _
    · rcases concludes.error fault failed with ⟨rfl, _⟩ | ⟨_, ready, _⟩
      · exact (readable failed).elim
      · exact ready.empty
    · exact (concludes.ok failed).empty
  · have empty : (startOfRun settings verbose).state.stack = .empty := rfl
    have concludes := process_concludes positive filename text empty usual
    have printable :
        ((preprocess settings verbose filename text).session.engine.style settings).IsPrintable :=
      Solver.isPrintable_of_isUsualPrecision concludes.kept
    obtain ⟨bindings, bound⟩ := Solver.exists_bindings printable
    obtain ⟨report, reports⟩ := exists_report filename bound
    rcases ended : (preprocess settings verbose filename text).result with fault | _
    · cases reported : fault.cause.isReported with
      | true =>
          exact .inl ⟨report, by simp only [run, ended, reported, reports, ↓reduceIte]⟩
      | false =>
          rcases concludes.escapes marks ended with ⟨isReported, _⟩ | escapes
          · rw [reported] at isReported
            cases isReported
          · exact .inr ⟨fault, by simp only [run, ended, reported]; rfl, escapes⟩
    · exact .inl ⟨report, by simp only [run, ended, reports]⟩

/-- A document whose second block has a sign without an operand. -/
def missingOperand : String := "\x7b\x7b x = 2 \x7d\x7d\n\x7b\x7b y = x + * 1 \x7d\x7d"

/-- The document leaves no operands although it is refused, and a run of it gives a report. -/
theorem document_conclusion_missingOperand :
    ((linearEngine {}).process {} "<string>" missingOperand freshSession).2.state.stack = .empty ∧
      ∃ report, (run {} false "<string>" missingOperand).1 = .ok report := by
  obtain ⟨sessions, runs⟩ := document_conclusion Settings.hasUsualMarks_standard (by decide +kernel)
    ⟨by decide, by decide⟩ "<string>" missingOperand
  refine ⟨(sessions freshSession rfl ⟨by decide, by decide⟩).2 (by decide +kernel), ?_⟩
  rcases runs false with reports | ⟨fault, failed, _⟩
  · exact reports
  · have accepted : (run {} false "<string>" missingOperand).1.toOption.isSome = true := by decide +kernel
    rw [failed] at accepted
    cases accepted

/-- A document with a letter that starts no name. -/
def accentedName : String := "\x7b\x7b x = é \x7d\x7d"

/-- The document has no report and leaves an operand, so that the next equation is refused. -/
theorem accentedName_escapes :
    let result := (linearEngine {}).process {} "<string>" accentedName freshSession
    result.1 = .error Cause.unreadableCharacter.unplaced ∧ result.2.state.stack = ⟨[.named "x"]⟩ ∧
      (run {} false "<string>" accentedName).1 = .error Cause.unreadableCharacter.unplaced ∧
      ((linearEngine {}).process {} "<string>" "\x7b\x7b y = 1 \x7d\x7d" result.2).1 =
        .error ((Cause.reading .malformedStatement).onLine 1) := by
  decide +kernel

end EquationText
