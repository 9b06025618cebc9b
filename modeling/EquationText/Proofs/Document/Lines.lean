import EquationText.Proofs.Document.Discipline
import EquationText.Proofs.Document.Places
import EquationText.Proofs.Session.Comparison

/-! # The lines of tokens and faults

With the usual marks each token has the line on which it starts, and a reported fault of a document has a
line (`EquationText.document_lines`): that of the character at which the scan stopped, or of the start of a
block that is not closed; of the token at which a statement is refused; or of the statement whose equation or
command the engine does not accept. The engine knows nothing of lines: it does the same further down in a
document, and therefore stops with faults that have none.
-/

namespace EquationText

/-! ## Faults of the engine -/

/-- Whether an action stops with no fault that has a line. -/
def Action.StopsUnplaced {σ α : Type} (action : Action σ α) : Prop :=
  ∀ before fault after, action before = (.error fault, after) → fault.line = none

/-- The fault of a statement whose action places none is on the line of the statement. -/
theorem Engine.inStatement_line {σ ν α : Type} {action : Action (Session σ ν) α}
    {before after : Traced (Session σ ν)} {line : Nat} {fault : Fault} (unplaced : action.StopsUnplaced)
    (run : inStatement line action before = (.error fault, after)) (reported : fault.cause.isReported = true) :
    fault.line = some line := by
  obtain ⟨found, middle, error, rfl⟩ := exists_of_inStatement_error run
  rw [Fault.cause_placedAt] at reported
  rw [Fault.placedAt, if_pos reported, unplaced before found middle error]
  rfl

/-- The comparison of sessions of the linear engine with ones that are the same a line further down. -/
def lineFurther : Simulation Solver Solver Expr Expr where
  engines := Solver.comparison Eq (false, false) true
  values := Eq
  sameTexts := true
  earlier := ""
  ahead := 0
  lines := 1

theorem lineFurther_matches (session : SolverSession) : lineFurther.Matches session session where
  engine := ⟨rfl, rfl, rfl, rfl, rfl, .inl rfl, fun _ => rfl, .inl ⟨rfl, rfl⟩⟩
  stack := List.forall₂_eq_eq_eq ▸ rfl
  lastOperator := rfl
  phase := rfl
  statements := (Int.add_zero _).symm
  output _ := (String.empty_append).symm

theorem linearEngine_lineFurther (settings : Settings) :
    (linearEngine settings).Simulates (linearEngine settings) lineFurther :=
  Engine.Compares.simulates (linearEngine_compares settings (false, false) true) rfl

/-- What an action does a line further down it does with no fault that has a line. -/
theorem stopsUnplaced_of_endsAlike {α : Type} {action : Action SolverSession α}
    (alike : lineFurther.EndsAlike action action) : action.StopsUnplaced := by
  intro before fault after run
  have ends := alike before before (lineFurther_matches _)
  rw [run] at ends
  cases ends with
  | error same _ =>
      obtain ⟨cause, _ | line⟩ := fault
      · rfl
      · have lines : line = line + 1 := Option.some.inj (congrArg Fault.line same)
        omega
  | left alone => cases alone.2
  | right alone => cases alone.2

variable {settings : Settings} {line : Nat} {program : List Instruction} {name payload : String}

theorem build_stopsUnplaced (settings : Settings) (program : List Instruction) :
    ((linearEngine settings).build program).StopsUnplaced :=
  stopsUnplaced_of_endsAlike (.bind Engine.begin_simulates fun _ _ _ =>
    Engine.executeAll_simulates (linearEngine_lineFurther settings) program)

theorem equation_stopsUnplaced (settings : Settings) (program : List Instruction) :
    ((linearEngine settings).build program >>= fun _ =>
      (linearEngine settings).finishEquation >>= fun _ => pure ()).StopsUnplaced := by
  have simulates := linearEngine_lineFurther settings
  exact stopsUnplaced_of_endsAlike (.bind (.bind Engine.begin_simulates fun _ _ _ =>
    Engine.executeAll_simulates simulates program) fun _ _ _ =>
      .bind (Engine.finishEquation_simulates simulates) fun _ _ _ => .of_pure trivial)

theorem dispatchCommand_stopsUnplaced (settings : Settings) (name payload : String) :
    ((linearEngine settings).dispatchCommand name payload).StopsUnplaced :=
  stopsUnplaced_of_endsAlike (Engine.dispatchCommand_simulates (linearEngine_lineFurther settings)
    ((linearEngine_compares settings (false, false) true).command name payload))

/-- Whether a cause, if it is a reported one, is that of an equation or a command which is not accepted. -/
def Cause.IsOfEngine (cause : Cause) : Prop :=
  cause.isReported = true → cause = .stackFull ∨ ∃ fault, cause = .solving fault

/-- Whatever state a solver is in, it stops with causes of the engine only. -/
theorem Solver.guards_engine (settings : Settings) : Guards settings (fun _ => True) Cause.IsOfEngine where
  solver cause ofSolver reported := by
    cases cause with
    | solving fault => exact .inr ⟨fault, rfl⟩
    | modulusRange => cases reported
    | _ => cases ofSolver
  digits solver _ cause error reported := by
    obtain ⟨fault, rfl⟩ := Style.digits_error error
    cases reported
  pivot := .inl nofun
  state _ _ _ _ holds := holds
  reporting _ _ holds := holds
  printing _ _ _ holds := holds

/-! ## Faults of steps -/

theorem ScanStops.line_isSome {openedAt : Nat} {left : List Char} {fault : Fault}
    (stops : ScanStops settings openedAt line left fault) (reported : fault.cause.isReported = true) :
    fault.line.isSome = true := by
  cases stops with
  | unreadable => cases reported
  | _ => rfl

/-- What a document is refused for has a line. -/
theorem Context.Blames.line_isSome (usual : settings.HasUsualMarks) {text : String} {fault : Fault}
    (blames : Context.Blames ⟨settings, (scan settings text).ending⟩ (scan settings text).tokens fault)
    (reported : fault.cause.isReported = true) : fault.line.isSome = true := by
  rcases blames with ending | ⟨_, _, _, _⟩
  · have ends := scan_layout usual text
    rw [show (scan settings text).ending = .error fault from ending] at ends
    generalize (scan settings text).tokens = tokens at ends
    generalize text.toList = cs at ends
    cases ends with
    | stopped _ _ _ stops => exact stops.line_isSome reported
  · rfl

namespace Engine

variable {text : String} {before after : Traced SolverSession} {step : Step} {fault : Fault}

/-- With room for it an equation stops with causes of any kind that the solver keeps to. -/
theorem equation_confines {P : Cause → Prop} (guards : Solver.Guards settings (fun _ => True) P)
    {session : SolverSession} {log : Array Entry} {levels : Nat} {word : List Token} {tree : Expr}
    (ready : session.IsReady) (derives : DerivesEquation levels word tree)
    (room : (linearEngine settings).hasRoom session.engine (tree.room : Nat) = true)
    (run : (linearEngine settings).perform (.equation line tree.program) ⟨session, log⟩ =
      (.error fault, after)) : P fault.cause := by
  rw [perform_equation_of_room (linearEngine_buildsTrees settings) ready derives.isWellFormed room] at run
  obtain @⟨_, _, left, right, _, first, second⟩ := derives
  have solved := Solver.solve_confines guards first.isExpression second.isExpression
  obtain ⟨found, middle, failed, rfl⟩ := exists_of_inStatement_error run
  rcases Action.run_bind_eq_error failed with error | ⟨_, _, _, done⟩
  · rw [Fault.cause_placedAt]
    exact (finishEquation_ends error rfl rfl trivial solved).2.2 found rfl
  · cases done

/-- An equation that is not accepted is so on its line, and by the engine if no statement is open. -/
theorem equation_fault (run : (linearEngine settings).perform (.equation line program) before =
      (.error fault, after)) (reported : fault.cause.isReported = true)
    (sound : (Step.equation line program).IsSound settings.nestingLevels (ReadingStops settings text)) :
    fault.line = some line ∧ (before.state.IsReady → fault.cause.IsOfEngine) := by
  refine ⟨?_, fun ready => ?_⟩
  · rw [perform_equation] at run
    exact inStatement_line (equation_stopsUnplaced settings program) run reported
  · obtain ⟨word, tree, derives, rfl⟩ := sound
    obtain ⟨session, log⟩ := before
    cases room : (linearEngine settings).hasRoom session.engine (tree.room : Nat) with
    | false =>
        rw [perform_equation_of_no_room (linearEngine_buildsTrees settings) ready derives.isWellFormed room] at run
        cases run
        exact fun _ => .inl rfl
    | true => exact equation_confines (Solver.guards_engine settings) ready derives room run

/-- A reference stops with no reported fault. -/
theorem reference_fault
    (run : (linearEngine settings).perform (.reference name) before = (.error fault, after)) :
    fault.cause.isReported = false := by
  have translates : ∀ session : SolverSession,
      StopsWith (fun cause => cause.isReported = false) (session.engine.translate settings name) := by
    intro session cause error
    obtain ⟨digits, rfl⟩ := Style.digits_error (Solver.translate_error error)
    rfl
  have writes : Action.Confines (fun _ => True) (fun cause => cause.isReported = false)
      ((linearEngine settings).writeReference name) :=
    .bind (.bind .of_get fun session => .bind (.of_ofExcept (translates session)) fun _ => .of_pure _)
      fun _ => .of_modify fun _ _ => trivial
  exact (writes before trivial).2 fault (congrArg Prod.fst run)

/-- A command stops with causes of any kind that the solver keeps to. -/
theorem command_confines {P : Cause → Prop} (guards : Solver.Guards settings (fun _ => True) P)
    (run : (linearEngine settings).perform (.command line name payload) before = (.error fault, after)) :
    P fault.cause := by
  obtain ⟨found, middle, error, rfl⟩ := exists_of_inStatement_error run
  have answered : Action.Confines (fun _ => True) P ((linearEngine settings).command name payload) :=
    Solver.command_confines guards name payload
  have dispatched := dispatchCommand_confines answered
  rw [Fault.cause_placedAt]
  exact (dispatched before trivial).2 found (congrArg Prod.fst error)

/-- A command that is not accepted is so on its line, and by the engine. -/
theorem command_fault (run : (linearEngine settings).perform (.command line name payload) before =
      (.error fault, after)) (reported : fault.cause.isReported = true) :
    fault.line = some line ∧ fault.cause.IsOfEngine :=
  ⟨inStatement_line (dispatchCommand_stopsUnplaced settings name payload) run reported,
    command_confines (Solver.guards_engine settings) run⟩

/-- An unfinished statement fails as it is refused, unless there is no room for the operands before. -/
theorem unfinished_fault {begun : Bool} {found : Fault} (run : (linearEngine settings).perform
      (.unfinished line begun program found) before = (.error fault, after))
    (reported : fault.cause.isReported = true)
    (placed : found.cause.isReported = true → found.line.isSome = true)
    (sound : (Step.unfinished line begun program found).IsSound settings.nestingLevels
      (ReadingStops settings text)) :
    fault = found ∨ fault.line = some line ∧ (before.state.IsReady → fault.cause.IsOfEngine) := by
  have own : fault = found.placedAt line → fault = found := by
    rintro rfl
    rw [Fault.cause_placedAt] at reported
    obtain ⟨cause, _ | own⟩ := found
    · cases placed reported
    · rw [Fault.placedAt, if_pos reported]
      rfl
  cases begun with
  | false =>
      obtain ⟨_, _, failed, same⟩ := exists_of_inStatement_error run
      cases failed
      exact .inl (own same)
  | true =>
      rw [perform_unfinished] at run
      obtain ⟨inner, middle, failed, same⟩ := exists_of_inStatement_error run
      rcases Action.run_bind_eq_error failed with error | ⟨_, _, _, done⟩
      · refine .inr ⟨?_, fun ready => ?_⟩
        · rw [same, Fault.cause_placedAt] at reported
          rw [same, Fault.placedAt, if_pos reported, build_stopsUnplaced settings program _ _ _ error]
          rfl
        · obtain ⟨_, values, wellFormed, rfl⟩ := sound
          obtain ⟨outcome, stack, last, built, ends⟩ :=
            build_programs (linearEngine_buildsTrees settings) ready.idle before.log wellFormed
          cases built.symm.trans error
          rcases ends with ok | full
          · cases ok
          · cases full
            rw [same, Fault.cause_placedAt]
            exact fun _ => .inl rfl
      · cases done
        exact .inl (own same)

end Engine

/-- A reported fault of a step is what the document is refused for there, or is on the line of the statement
that the step carries out. -/
theorem Step.HasPlace.fault (usual : settings.HasUsualMarks) {text : String}
    {before after : Traced SolverSession} {step : Step} {fault : Fault}
    (place : step.HasPlace ⟨settings, (scan settings text).ending⟩ (scan settings text).tokens)
    (sound : step.IsSound settings.nestingLevels (ReadingStops settings text))
    (run : (linearEngine settings).perform step before = (.error fault, after))
    (reported : fault.cause.isReported = true) :
    Context.Blames ⟨settings, (scan settings text).ending⟩ (scan settings text).tokens fault ∨
      ∃ first : Token, step.IsReadAt ⟨settings, (scan settings text).ending⟩ (scan settings text).tokens first ∧
        fault.line = some first.line ∧ (before.state.IsReady → fault.cause.IsOfEngine) := by
  cases step with
  | text raw => cases run
  | reference name =>
      rw [Engine.reference_fault run] at reported
      cases reported
  | equation line program =>
      obtain ⟨first, rfl, read⟩ := place
      exact .inr ⟨first, read, Engine.equation_fault run reported sound⟩
  | command line name payload =>
      obtain ⟨first, rfl, read⟩ := place
      obtain ⟨placed, ofEngine⟩ := Engine.command_fault run reported
      exact .inr ⟨first, read, placed, fun _ => ofEngine⟩
  | unfinished line begun program found =>
      obtain ⟨⟨first, rfl, read⟩, blames⟩ := place
      rcases Engine.unfinished_fault run reported (blames.line_isSome usual) sound with rfl | placed
      · exact .inl blames
      · exact .inr ⟨first, read, placed⟩
  | halt found =>
      cases run
      exact .inl place

/-! ## Documents -/

/-- Where a fault of a document is found: where the scan stops, at the token at which the first statement that
is refused is so, or in the first statement that the engine does not accept. -/
inductive IsFoundAt (settings : Settings) (text : String) (before : Traced SolverSession) : Fault → Prop
  | scan {fault : Fault}
    (stops : ScanEnds settings [] (scan settings text).tokens text.toList (.error fault)) :
    IsFoundAt settings text before fault
  | refusal {fault : Fault} (refused : IsRefusal settings (scan settings text).tokens fault) :
    IsFoundAt settings text before fault
  | statement {done later : List Step} {step : Step} {first : Token} {cause : Cause}
    {middle after : Traced SolverSession} (whole : documentSteps settings text = done ++ step :: later)
    (read : step.IsReadAt ⟨settings, (scan settings text).ending⟩ (scan settings text).tokens first)
    (accepted : (linearEngine settings).performAll done ⟨before.state.forDocument, before.log⟩ =
      (.ok (), middle))
    (failed : (linearEngine settings).perform step middle = (.error (cause.onLine first.line), after))
    (kind : before.state.stack = .empty → cause = .stackFull ∨ ∃ fault, cause = .solving fault) :
    IsFoundAt settings text before (cause.onLine first.line)

/-- Each token of a document is on the line that is counted from the line ends before its first character, and
so is the end of the text; the tokens of a statement are on one line; and a reported fault has a line, that of
the place where it is found. -/
theorem document_lines (usual : settings.HasUsualMarks) (text : String) :
    ScanEnds settings [] (scan settings text).tokens text.toList (scan settings text).ending ∧
      (∀ statement rest, IsStatement (scan settings text).tokens statement rest →
        ∃ line, ∀ token ∈ statement, token.line = line) ∧
      ∀ filename before after fault, fault.cause.isReported = true →
        (linearEngine settings).process settings filename text before = (.error fault, after) →
          fault.line.isSome = true ∧ IsFoundAt settings text before fault := by
  have ends := scan_layout usual text
  refine ⟨ends, fun statement rest isStatement => ?_, fun filename before after fault reported failed => ?_⟩
  · cases statement with
    | nil => exact ⟨1, List.forall_mem_nil _⟩
    | cons first others => exact ⟨first.line, isStatement.line_eq usual⟩
  · obtain ⟨done, step, later, middle, whole, accepted, failed⟩ :=
      Engine.performAll_error (Engine.process_eq_error_iff.mp failed)
    have member : step ∈ documentSteps settings text := by simp [whole]
    have place := documentSteps_havePlaces usual text step member
    have sound := documentSteps_isSound settings text step member
    rcases place.fault usual sound failed reported with blames | ⟨first, read, placed, kind⟩
    · refine ⟨blames.line_isSome usual reported, ?_⟩
      rcases blames with ending | refused
      · exact .scan (ending ▸ ends)
      · exact .refusal refused
    · refine ⟨by rw [placed]; rfl, ?_⟩
      obtain ⟨cause, _⟩ := fault
      cases placed
      refine .statement whole read accepted failed fun empty => kind ?_ reported
      have start : (⟨before.state.forDocument, before.log⟩ : Traced SolverSession).state.IsReady := ⟨empty, rfl⟩
      have doneSound : ∀ step ∈ done, step.IsSound settings.nestingLevels (ReadingStops settings text) :=
        fun step member => documentSteps_isSound settings text step (by simp [whole, member])
      have orderly := (Engine.performAll_isOrderly (linearEngine_isProper settings) start doneSound).1
      rw [accepted] at orderly
      exact orderly.ready_of_ok

/-- A document whose third statement, on the third line, contradicts the first one. -/
def contradictionOnThirdLine : String := "\x7b\x7b x = 2 \x7d\x7d\n\x7b\x7b y = 3 # more\n x = 4 \x7d\x7d"

/-- Each statement of the document is on one line, and the contradiction is found on the third one. -/
theorem document_lines_contradictionOnThirdLine :
    (∀ statement rest, IsStatement (scan {} contradictionOnThirdLine).tokens statement rest →
      ∃ line, ∀ token ∈ statement, token.line = line) ∧
      ((linearEngine {}).process {} "<string>" contradictionOnThirdLine freshSession).1 =
        .error ((Cause.solving .inconsistent).onLine 3) ∧
      IsFoundAt {} contradictionOnThirdLine freshSession ((Cause.solving .inconsistent).onLine 3) := by
  obtain ⟨_, statements, faults⟩ := document_lines Settings.hasUsualMarks_standard contradictionOnThirdLine
  have failed : ((linearEngine {}).process {} "<string>" contradictionOnThirdLine freshSession).1 =
      .error ((Cause.solving .inconsistent).onLine 3) := by
    decide +kernel
  exact ⟨statements, failed, (faults "<string>" freshSession _ _ rfl (Prod.ext failed rfl)).2⟩

end EquationText
