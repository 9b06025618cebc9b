import EquationText.Proofs.Grammar.Limits
import EquationText.Proofs.Session.Comparison

/-! # Documents under wider limits

The limits for the operand stack and for nesting have no influence on a run but that a full stack or an
expression nested too deeply may end it: a run that does not end so is the same under wider limits
(`EquationText.preprocess_withLimits`).
-/

namespace EquationText

section Settings

variable (settings : Settings) (stackDepth nesting : Int)

/-! ## Scanning and solving -/

theorem scanBlock_withLimits (openedAt line : Nat) (found : List Token) (cs : List Char) :
    scanBlock (settings.withLimits stackDepth nesting) openedAt line found cs =
      scanBlock settings openedAt line found cs := by
  have same : ∀ line cs, blockStep (settings.withLimits stackDepth nesting) openedAt line cs =
      blockStep settings openedAt line cs := fun _ _ => rfl
  fun_induction scanBlock settings openedAt line found cs with
  | case1 line found cs rest step ih => rw [scanBlock_of_skip ((same line cs).trans step), ih]
  | case2 line found cs lexeme lines rest step ih =>
      rw [scanBlock_of_token ((same line cs).trans step), ih]
  | case3 line found cs rest step => rw [scanBlock_of_close ((same line cs).trans step)]
  | case4 line found cs fault step => rw [scanBlock_of_fault ((same line cs).trans step)]

/-- Scanning does not read the limits. -/
theorem scanDocument_withLimits (line : Nat) (found : List Token) (cs : List Char) :
    scanDocument (settings.withLimits stackDepth nesting) line found cs =
      scanDocument settings line found cs := by
  induction size : cs.length using Nat.strong_induction_on generalizing line found cs with
  | _ size ih =>
  subst size
  rw [scanDocument, scanDocument]
  simp only [scanBlock_withLimits,
    show (settings.withLimits stackDepth nesting).openMark = settings.openMark from rfl]
  split
  · rfl
  · split
    · rfl
    · split
      · rfl
      · split
        · rename_i shorter
          exact ih _ shorter _ _ _ rfl
        · rfl

theorem scan_withLimits (text : String) :
    scan (settings.withLimits stackDepth nesting) text = scan settings text :=
  scanDocument_withLimits settings stackDepth nesting 1 [] text.toList

theorem Solver.substituteAll_withLimits (unknown : Unknown) (solution : Form)
    (entries : List (Unknown × Form)) :
    substituteAll (settings.withLimits stackDepth nesting) unknown solution entries =
      substituteAll settings unknown solution entries := by
  induction entries with
  | nil => rfl
  | cons entry rest ih =>
      rw [substituteAll, substituteAll, ih]
      rfl

theorem Solver.translateAll_withLimits (solver : Solver) (names : List String) :
    solver.translateAll (settings.withLimits stackDepth nesting) names =
      solver.translateAll settings names := by
  induction names with
  | nil => rfl
  | cons name rest ih =>
      rw [translateAll, translateAll, ih]
      rfl

theorem Solver.bindings_withLimits (solver : Solver) :
    solver.bindings (settings.withLimits stackDepth nesting) = solver.bindings settings :=
  translateAll_withLimits settings stackDepth nesting solver _

theorem Solver.showNames_withLimits (words : List (List Char)) :
    showNames (settings.withLimits stackDepth nesting) words = showNames settings words := by
  induction words with
  | nil => rfl
  | cons word rest ih =>
      rw [showNames, showNames, ih]
      rfl

/-- Solving an equation does not read the limits. -/
theorem Solver.equate_withLimits (left right : Value) :
    equate (settings.withLimits stackDepth nesting) left right = equate settings left right := by
  have installed : install (settings.withLimits stackDepth nesting) = install settings := by
    funext unknown solution
    simp only [install, substituteAll_withLimits]
    rfl
  cases left with
  | infinite => rfl
  | form form =>
      cases right with
      | infinite => rfl
      | form other =>
          simp only [equate, eliminate, installed]
          rfl

theorem Solver.solve_withLimits (equation : Expr) :
    solve (settings.withLimits stackDepth nesting) equation = solve settings equation := by
  unfold solve
  split
  · simp only [equate_withLimits, translateAll_withLimits]
    rfl
  · rfl

theorem Solver.command_withLimits (name payload : String) :
    command (settings.withLimits stackDepth nesting) name payload = command settings name payload := by
  unfold command showForms
  simp only [showNames_withLimits]

/-- The linear engine has no limits of the settings. -/
theorem linearEngine_withLimits :
    linearEngine (settings.withLimits stackDepth nesting) = linearEngine settings := by
  have solve : Solver.solve (settings.withLimits stackDepth nesting) = Solver.solve settings :=
    funext (Solver.solve_withLimits settings stackDepth nesting)
  have command : Solver.command (settings.withLimits stackDepth nesting) = Solver.command settings :=
    funext fun name => funext (Solver.command_withLimits settings stackDepth nesting name)
  simp only [linearEngine, solve, command]
  rfl

end Settings

/-! ## Steps -/

/-- Whether a statement that ends at a limit has the start of the program of another statement. -/
def Step.IsCutShort (step other : Step) : Prop :=
  ∃ line program more fault, fault.cause.isLimit = true ∧ step = .unfinished line true program fault ∧
    (other = .equation line (program ++ more) ∨
      ∃ found, other = .unfinished line true (program ++ more) found)

/-- Whether some steps are the same as others, or the same up to a statement that ends at a limit. -/
def AreWithin (steps wider : List Step) : Prop :=
  steps = wider ∨ ∃ done step other later, steps = done ++ [step] ∧ wider = done ++ other :: later ∧
    step.IsCutShort other

namespace Context

variable {context : Context} {stackDepth nesting : Int} {item wideItem : Production} {inside : Bool}
  {found : List Step} {tokens rest : List Token}

/-- A statement leads to the same step under wider limits, or ends at a limit. -/
theorem statement_within (context : Context) (stackDepth nesting : Int) (within : item.IsWithin wideItem)
    (tokens : List Token) :
    context.statement item tokens = (context.withLimits stackDepth nesting).statement wideItem tokens ∨
      (context.statement item tokens).2 = none ∧ (context.statement item tokens).1.IsCutShort
        ((context.withLimits stackDepth nesting).statement wideItem tokens).1 := by
  by_cases command : ∃ name payload line rest, tokens = ⟨.command name payload, line⟩ :: rest
  · obtain ⟨name, payload, line, rest, rfl⟩ := command
    exact .inl rfl
  have plain : ∀ token ∈ tokens.head?, ∀ name payload, token.lexeme ≠ .command name payload := by
    rintro ⟨lexeme, line⟩ head name payload rfl
    obtain ⟨rest, rfl⟩ := List.head?_eq_some_iff.mp head
    exact command ⟨name, payload, line, rest, rfl⟩
  have equation : (context.equation item tokens).IsWithin
      ((context.withLimits stackDepth nesting).equation wideItem tokens) := equation_within within tokens
  rw [statement_of_no_command plain, statement_of_no_command plain]
  generalize context.equation item tokens = reading at equation ⊢
  generalize (context.withLimits stackDepth nesting).equation wideItem tokens = wider at equation ⊢
  cases equation with
  | same => exact .inl rfl
  | cut limit program more outcome =>
      refine .inr ⟨rfl, context.lineOf tokens, program, more, _, limit, rfl, ?_⟩
      cases outcome with
      | ok remaining => exact .inl rfl
      | error found => exact .inr ⟨found, rfl⟩

/-- A statement gives the first of the steps from it on, and the only one if it is not read to its end. -/
theorem exists_stepsFrom_statement (context : Context) (side : Production) (found : List Step)
    (goesOn : endsStatement tokens = false) :
    ∃ later, context.stepsFrom side true found tokens =
        found.reverse ++ (context.statement side tokens).1 :: later ∧
      ((context.statement side tokens).2 = none → later = []) := by
  rw [stepsFrom_statement goesOn]
  rcases context.statement side tokens with ⟨step, _ | remaining⟩
  · exact ⟨[], by simp, fun _ => rfl⟩
  · simp only
    split
    · have later := context.stepsFrom_append side true (step :: found) [] remaining
      rw [List.nil_append, List.reverse_cons, List.append_assoc] at later
      exact ⟨_, later, nofun⟩
    · let fault := ReadingFault.unexpected (context.shown remaining)
      refine ⟨[.halt ((Cause.reading fault).onLine (context.lineOf remaining))], ?_, nofun⟩
      rw [List.reverse_cons, List.reverse_cons, List.append_assoc]
      rfl

theorem stepsPast_within
    (later : AreWithin (context.stepsFrom item inside found rest)
      ((context.withLimits stackDepth nesting).stepsFrom wideItem inside found rest)) :
    AreWithin (context.stepsPast item inside found rest)
      ((context.withLimits stackDepth nesting).stepsPast wideItem inside found rest) := by
  unfold stepsPast
  rw [show (context.withLimits stackDepth nesting).advance = context.advance from rfl]
  split
  · exact later
  · exact .inl rfl

/-- Under wider limits the steps are the same, at least up to a statement that ends at a limit. -/
theorem stepsFrom_within (within : item.IsWithin wideItem) (inside : Bool) (found : List Step)
    (tokens : List Token) :
    AreWithin (context.stepsFrom item inside found tokens)
      ((context.withLimits stackDepth nesting).stepsFrom wideItem inside found tokens) := by
  induction size : tokens.length using Nat.strong_induction_on generalizing inside found tokens with
  | _ size ih =>
  subst size
  cases inside with
  | true =>
      by_cases ends : endsStatement tokens = true
      · unfold endsStatement at ends
        split at ends
        · rw [stepsFrom_statementEnd, stepsFrom_statementEnd]
          exact stepsPast_within (ih _ (Nat.lt_succ_self _) true found _ rfl)
        · rw [stepsFrom_close, stepsFrom_close]
          exact stepsPast_within (ih _ (Nat.lt_succ_self _) false found _ rfl)
        · cases ends
      · have goesOn := Bool.eq_false_iff.mpr ends
        rcases context.statement_within stackDepth nesting within tokens with same | ⟨none, cut⟩
        · rw [stepsFrom_statement goesOn, stepsFrom_statement goesOn, ← same]
          split
          · exact .inl rfl
          · rename_i step remaining read
            split
            · exact ih _ (context.statement_length_lt (by rw [read])) true (step :: found) remaining rfl
            · exact .inl rfl
        · obtain ⟨_, steps, last⟩ := context.exists_stepsFrom_statement item found goesOn
          obtain ⟨later, wider, _⟩ :=
            (context.withLimits stackDepth nesting).exists_stepsFrom_statement wideItem found goesOn
          exact .inr ⟨found.reverse, _, _, later, by rw [steps, last none], wider, cut⟩
  | false =>
      cases tokens with
      | nil =>
          rw [stepsFrom_nil, stepsFrom_nil]
          exact .inl rfl
      | cons token rest =>
          obtain ⟨lexeme, line⟩ := token
          cases written : written? lexeme with
          | some step =>
              rw [stepsFrom_written written, stepsFrom_written written]
              exact stepsPast_within (ih _ (Nat.lt_succ_self _) false (step :: found) rest rfl)
          | none =>
              by_cases opened : lexeme = .blockOpen
              · subst opened
                rw [stepsFrom_open, stepsFrom_open]
                exact stepsPast_within (ih _ (Nat.lt_succ_self _) true found rest rfl)
              · rw [stepsFrom_stray written opened, stepsFrom_stray written opened]
                exact .inl rfl

/-- Within wider limits the steps of a document are the same, at least up to a statement that ends at a limit. -/
theorem steps_within (context : Context) {stackDepth nesting : Int}
    (le : context.settings.maxNesting ≤ nesting) (tokens : List Token) :
    AreWithin (context.steps tokens) ((context.withLimits stackDepth nesting).steps tokens) := by
  have levels : context.settings.nestingLevels ≤
      (context.withLimits stackDepth nesting).settings.nestingLevels := by
    have le : context.settings.maxNesting.toNat ≤ nesting.toNat := Int.toNat_le_toNat le
    change min context.settings.maxNesting.toNat context.settings.readerRoom ≤
      min nesting.toNat context.settings.readerRoom
    omega
  unfold steps
  rw [show (context.withLimits stackDepth nesting).ending = context.ending from rfl]
  split
  · exact .inl rfl
  · exact stepsFrom_within (expression_within (context.operand_within stackDepth nesting levels)) false [] _

end Context

/-- A document has the same steps under wider limits, at least up to a statement that ends at a limit. -/
theorem documentSteps_within (settings : Settings) (stackDepth : Int) {nesting : Int}
    (le : settings.maxNesting ≤ nesting) (text : String) :
    AreWithin (documentSteps settings text)
      (documentSteps (settings.withLimits stackDepth nesting) text) := by
  unfold documentSteps
  simp only [scan_withLimits]
  exact Context.steps_within ⟨settings, (scan settings text).ending⟩ le (scan settings text).tokens

/-! ## Runs -/

/-- The linear engine beside itself with more room, where a limit may end the first run alone. -/
def roomierSimulation : Simulation Solver Solver Expr Expr where
  engines :=
    { states := Solver.Matches (· ≤ ·) (false, false) true
      faults := fun fault found => fault = found ∧ fault.line = none
      left := fun fault => fault.cause.isLimit = true
      right := fun _ => False }
  values := Eq
  sameTexts := true
  earlier := ""
  ahead := 0
  lines := 0

/-- Solvers that are compared with different room are compared so here. -/
theorem roomier_relates {α β : Type} {results : α → β → Prop} {first : Action Solver α}
    {second : Action Solver β}
    (relates : (Solver.comparison (· ≤ ·) (false, false) true).Relates results first second) :
    roomierSimulation.engines.Relates results first second := fun before other same =>
  (relates before other same).mono (fun _ _ states => states) (fun _ _ faults => faults)
    (fun _ alone => nomatch alone.2) fun _ alone => nomatch alone.2

/-- The linear engine runs along with itself with more room: only the run with less room ends at a limit alone. -/
theorem linearEngine_simulates (settings : Settings) :
    (linearEngine settings).Simulates (linearEngine settings) roomierSimulation where
  hasRoom solver other wanted same := by
    change solver.hasRoom wanted = other.hasRoom wanted ∨ solver.hasRoom wanted = false ∧ _
    simp only [Solver.hasRoom, show solver.closed = other.closed from same.closed]
    by_cases fits : wanted ≤ solver.maxDepth
    · have wide : wanted ≤ other.maxDepth := Int.le_trans fits same.maxDepth
      exact .inl (by simp only [fits, wide])
    · exact .inr ⟨by rw [decide_eq_false fits, Bool.and_false], rfl⟩
  named _ := rfl
  anonymous := rfl
  number _ := rfl
  construct operator operands others _ related := by
    have same : operands = others := by
      rw [← List.forall₂_eq_eq_eq]
      exact related
    rw [same]
    cases (linearEngine settings).construct operator others with
    | ok tree => exact .ok rfl
    | error cause => exact .error rfl
  solve tree other related := by
    rw [show tree = other from related]
    exact roomier_relates (Solver.solve_relates (· ≤ ·) (false, false) true other)
  translate solver other reference same := by
    change Comparison.Alike _ _ (solver.translate settings reference) (other.translate settings reference)
    rw [Solver.translate_congr same.solved (same.precision rfl)]
    cases other.translate settings reference with
    | ok text => exact .ok fun _ => rfl
    | error cause => exact .error ⟨rfl, rfl⟩
  faults _ _ same := same
  left fault line limit := (congrArg Cause.isLimit (fault.placedAt_cause line)).trans limit
  right _ _ alone := alone.elim

section Runs

variable {settings : Settings}

theorem command_simulates (settings : Settings) (step : Step) :
    step.IsAnsweredAlike (linearEngine settings) (linearEngine settings) roomierSimulation := by
  cases step with
  | command line name payload =>
      exact roomier_relates (Solver.command_relates (· ≤ ·) (false, false) true name payload)
  | _ => trivial

/-- A statement that ends at a limit ends the run, and does nothing else before. -/
theorem cutShort_relates (settings : Settings) {step other : Step} (cut : step.IsCutShort other) :
    roomierSimulation.sessions.Relates (fun _ _ => False) ((linearEngine settings).perform step)
      ((linearEngine settings).perform other) := by
  obtain ⟨line, program, more, fault, limit, rfl, continued⟩ := cut
  have simulates := linearEngine_simulates settings
  have ended : ∀ later : Action SolverSession Unit,
      roomierSimulation.sessions.Relates (fun _ _ => False)
        (do Session.begin; (linearEngine settings).executeAll program; Action.fail fault : Action _ Unit)
        (do
          Session.begin
          (linearEngine settings).executeAll (program ++ more)
          later) := by
    intro later
    refine .bind Engine.begin_simulates fun _ _ _ => ?_
    rw [Engine.executeAll_append, Action.bind_assoc]
    exact .bind (Engine.executeAll_simulates simulates program) fun _ _ _ _ _ _ => .left limit
  rcases continued with rfl | ⟨found, rfl⟩
  · exact Engine.inStatement_simulates simulates line (ended _)
  · exact Engine.inStatement_simulates simulates line (ended _)

/-- Steps end as they do under wider limits, or at a limit. -/
theorem performAll_within (settings : Settings) {steps wider : List Step} (within : AreWithin steps wider) :
    roomierSimulation.EndsAlike ((linearEngine settings).performAll steps)
      ((linearEngine settings).performAll wider) := by
  have alike : ∀ steps, roomierSimulation.EndsAlike ((linearEngine settings).performAll steps)
      ((linearEngine settings).performAll steps) := by
    intro steps
    have relates := Engine.performAll_simulates (linearEngine_simulates settings)
      fun step (_ : step ∈ steps) => command_simulates settings step
    rwa [show roomierSimulation.lines = 0 from rfl, show (Step.movedDown 0) = id from
      funext Step.movedDown_zero, List.map_id] at relates
  rcases within with rfl | ⟨done, step, other, later, rfl, rfl, cut⟩
  · exact alike steps
  · rw [Engine.performAll_append, Engine.performAll_append]
    exact .bind (alike done) fun _ _ _ => .bind (cutShort_relates settings cut) fun _ _ ended => ended.elim

/-- A document ends as it does under wider limits and with more room, or at a limit. -/
theorem process_within (settings : Settings) {stackDepth nesting : Int} (le : settings.maxNesting ≤ nesting)
    (filename text : String) {before other : Traced SolverSession}
    (start : roomierSimulation.Matches before.state.forDocument other.state.forDocument) :
    roomierSimulation.sessions.Ends (fun _ _ => True)
      ((linearEngine settings).process settings filename text before)
      ((linearEngine (settings.withLimits stackDepth nesting)).process
        (settings.withLimits stackDepth nesting) filename text other) := by
  rw [linearEngine_withLimits]
  have steps := performAll_within settings (documentSteps_within settings stackDepth le text)
  exact Engine.process_simulates_of_steps steps start

end Runs

/-- Two runs with the same outcome and the same report of it come to the same. -/
theorem run_congr {settings others : Settings} {verbose : Bool} {filename text : String}
    (result : (preprocess settings verbose filename text).result =
      (preprocess others verbose filename text).result)
    (report : (preprocess settings verbose filename text).report settings filename =
      (preprocess others verbose filename text).report others filename) :
    (run settings verbose filename text).1 = (run others verbose filename text).1 := by
  unfold run
  simp only [result, report]

/-- A run that does not end at a limit is the same under wider limits: it ends with the same success or the
same fault, and has the same output, the same solved names and the same report. -/
theorem preprocess_withLimits (settings : Settings) (verbose : Bool) (filename text : String)
    {stackDepth nesting : Int} (deeper : settings.maxStackDepth ≤ stackDepth)
    (more : settings.maxNesting ≤ nesting)
    (unlimited : ∀ fault, (preprocess settings verbose filename text).result = .error fault →
      fault.cause.isLimit = false) :
    let wider := settings.withLimits stackDepth nesting
    let first := preprocess settings verbose filename text
    let second := preprocess wider verbose filename text
    second.result = first.result ∧ second.session.output = first.session.output ∧
      second.session.engine.bindings wider = first.session.engine.bindings settings ∧
      (run wider verbose filename text).1 = (run settings verbose filename text).1 := by
  intro wider first second
  let processed (settings : Settings) :=
    (linearEngine settings).process settings filename text ⟨.start (.start settings verbose none none), #[]⟩
  have start : roomierSimulation.Matches
      (Session.start (Solver.start settings verbose none none)).forDocument
      (Session.start (Solver.start wider verbose none none)).forDocument :=
    { engine := ⟨rfl, rfl, rfl, deeper, rfl, .inl rfl, fun _ => rfl, .inl ⟨rfl, rfl⟩⟩
      stack := .nil
      lastOperator := rfl
      phase := rfl
      statements := rfl
      output := fun _ => rfl }
  have matched : (processed wider).1 = (processed settings).1 ∧
      roomierSimulation.Matches (processed settings).2.state (processed wider).2.state := by
    have ends : roomierSimulation.sessions.Ends (fun _ _ => True) (processed settings) (processed wider) :=
      process_within settings more filename text start
    have stops : ∀ fault, (processed settings).1 = .error fault → fault.cause.isLimit = false := unlimited
    generalize processed settings = run at ends stops ⊢
    generalize processed wider = other at ends ⊢
    cases ends with
    | ok _ states => exact ⟨rfl, states⟩
    | error faults states => exact ⟨(congrArg _ (faults.trans (Fault.movedDown_zero _))).symm, states⟩
    | left alone => cases (stops _ rfl).symm.trans alone
    | right alone => exact alone.elim
  obtain ⟨result, states⟩ := matched
  have output : second.session.output = first.session.output :=
    (String.empty_append.symm.trans (states.output rfl).symm)
  have bindings : second.session.engine.bindings wider = first.session.engine.bindings settings :=
    (Solver.bindings_withLimits settings stackDepth nesting second.session.engine).trans
      (Solver.bindings_congr states.engine.solved.symm (states.engine.precision rfl).symm)
  have report : second.report wider filename = first.report settings filename := by
    rw [Preprocessed.report, Preprocessed.report, bindings, show second.result = first.result from result,
      output]
  exact ⟨result, output, bindings, run_congr result report⟩

/-- Two equations, and on the second line a third one that follows from them. -/
def redundantThird : String := "\x7b\x7b x + y = 2*(y + 1); y = 3\n x = 2 + y \x7d\x7d x"

/-- With room for five operands and two levels the run ends at the redundant equation, and so it does with
the usual limits; with less room or fewer levels it ends at the parenthesis. -/
theorem preprocess_withLimits_redundantThird :
    let narrow : Settings := { maxStackDepth := 5, maxNesting := 2 }
    let stopped : Except Fault Unit := .error ((Cause.solving .redundant).onLine 2)
    (preprocess narrow false "<string>" redundantThird).result = stopped ∧
      (preprocess (narrow.withLimits 100 100) false "<string>" redundantThird).result = stopped ∧
      (run (narrow.withLimits 100 100) false "<string>" redundantThird).1 =
        (run narrow false "<string>" redundantThird).1 ∧
      (preprocess (narrow.withLimits 4 2) false "<string>" redundantThird).result =
        .error (Cause.stackFull.onLine 1) ∧
      (preprocess (narrow.withLimits 5 1) false "<string>" redundantThird).result =
        .error ((Cause.reading (.tooDeep (some 1))).onLine 1) := by
  intro narrow stopped
  have ended : (preprocess narrow false "<string>" redundantThird).result = stopped := by
    decide +kernel
  have unlimited : ∀ fault, (preprocess narrow false "<string>" redundantThird).result = .error fault →
      fault.cause.isLimit = false := by
    intro fault failed
    rw [← Except.error.inj (ended.symm.trans failed)]
    rfl
  obtain ⟨result, _, _, report⟩ := preprocess_withLimits narrow false "<string>" redundantThird
    (show (5 : Int) ≤ 100 by decide) (show (2 : Int) ≤ 100 by decide) unlimited
  refine ⟨ended, result.trans ended, report, ?_, ?_⟩
  · decide +kernel
  · decide +kernel

end EquationText
