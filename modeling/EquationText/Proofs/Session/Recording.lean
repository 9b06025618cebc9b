import EquationText.Proofs.Document.Run
import EquationText.Proofs.Session.Building
import EquationText.Proofs.Session.Simulation

/-! # Recording texts and recording trees

The engine that builds texts and the one that keeps trees carry out a document without commands alike, and
the texts of the first are those of the trees of the second
(`EquationText.transcript_renders_equations`).
-/

namespace EquationText

/-- The text of an operator with its operands. -/
def Operator.rendering (operator : Operator) (operands : List String) : String :=
  let inner := ", ".intercalate operands
  s!"{operator.name}({inner})"

/-- The text of a tree: each node with its operands in parentheses, in order. -/
def Expr.rendering : Expr → String
  | named name => name
  | anonymous => "?"
  | number value => value.toBrief
  | negation operand => Operator.negation.rendering [operand.rendering]
  | application callee argument =>
    Operator.application.rendering [callee.rendering, argument.rendering]
  | mediation condition consequent alternative =>
    Operator.mediation.rendering
      [condition.rendering, consequent.rendering, alternative.rendering]
  | binary operator left right => operator.rendering [left.rendering, right.rendering]

/-- A node that an operator builds has the text of the operator with those of its operands. -/
theorem Expr.rendering_ofOperands {operator : Operator} {operands : List Expr} {tree : Expr}
    (built : Expr.ofOperands operator operands = .ok tree) :
    tree.rendering = operator.rendering (operands.map rendering) := by
  unfold ofOperands at built
  split at built
  · cases built
    rfl
  · cases built
    rfl
  · cases built
    rfl
  · split at built
    · cases built
      rfl
    · cases built
  · cases built

/-- An operator builds a node from as many operands as it takes. -/
theorem Expr.exists_ofOperands {operator : Operator} {operands : List Expr}
    (count : operands.length = operator.arity) : ∃ tree, Expr.ofOperands operator operands = .ok tree := by
  cases operator with
  | negation =>
      obtain ⟨operand, rfl⟩ := List.length_eq_one_iff.mp count
      exact ⟨_, rfl⟩
  | mediation =>
      obtain ⟨condition, consequent, alternative, rfl⟩ := List.length_eq_three.mp count
      exact ⟨_, rfl⟩
  | _ =>
      obtain ⟨left, right, rfl⟩ := List.length_eq_two.mp count
      exact ⟨_, rfl⟩

/-- Whether the engine that builds texts recorded the texts of the trees that the other one keeps, where
both have the same room and no name is solved. -/
structure Transcript.Renders (transcript : Transcript) (record : TreeRecord) : Prop where
  maxDepth : transcript.maxDepth = record.solver.maxDepth
  opened : record.solver.closed = false
  bindings : transcript.bindings = []
  unsolved : record.solver.solved = []
  equations : transcript.solved = record.equations.map Expr.rendering

/-- The engine that builds texts beside the one that keeps trees. -/
def renderingSimulation : Simulation Transcript TreeRecord String Expr where
  engines :=
    { states := Transcript.Renders
      faults := fun _ _ => False
      left := fun _ => False
      right := fun _ => False }
  values text tree := text = tree.rendering
  sameTexts := true
  earlier := ""
  ahead := 0
  lines := 0

/-- A solver that solved nothing has no text for any reference. -/
theorem Solver.translate_of_unsolved {solver : Solver} (settings : Settings) (unsolved : solver.solved = [])
    (reference : String) : solver.translate settings reference = .ok none := by
  unfold translate
  split <;> simp only [unsolved, valueOf?]

/-- Building texts runs along with building trees: every text is the rendering of the tree in its place. -/
theorem transcriptEngine_simulates (settings : Settings) :
    transcriptEngine.Simulates (treeRecordEngine settings) renderingSimulation where
  hasRoom transcript record wanted same := by
    refine .inl ?_
    change decide (wanted ≤ transcript.maxDepth) = record.solver.hasRoom wanted
    rw [Solver.hasRoom, same.opened, same.maxDepth]
    rfl
  named _ := rfl
  anonymous := rfl
  number _ := rfl
  construct operator texts trees count related := by
    have rendered : texts = trees.map Expr.rendering := by
      rwa [← List.forall₂_eq_eq_eq, List.forall₂_map_right_iff]
    obtain ⟨tree, built⟩ := Expr.exists_ofOperands (related.length_eq.symm.trans count)
    change Comparison.Alike _ _ (.ok (operator.rendering texts)) (Expr.ofOperands operator trees)
    rw [built, rendered]
    exact .ok (Expr.rendering_ofOperands built).symm
  solve text tree related := by
    refine .bind (.of_modify fun transcript record same => ?_) fun _ _ _ => .of_pure trivial
    refine { same with equations := ?_ }
    rw [same.equations, show text = tree.rendering from related, List.map_append, List.map_singleton]
  translate transcript record reference same := by
    change Comparison.Alike _ _ (.ok (valueOf? reference transcript.bindings))
      (record.solver.translate settings reference)
    rw [Solver.translate_of_unsolved settings same.unsolved, same.bindings]
    exact .ok fun _ => rfl
  faults _ _ same := same.elim
  left _ _ alone := alone.elim
  right _ _ alone := alone.elim

/-- Whether a step is a command. -/
def Step.isCommand : Step → Bool
  | command _ _ _ => true
  | _ => false

/-- The start of an engine that builds texts, and that of one that keeps trees. -/
def Transcript.start (maxDepth : Int) : Transcript := ⟨maxDepth, [], [], []⟩

/-- A document without commands ends alike on an engine that builds texts and on one that keeps trees, with
the same room: with the same success or the same fault at the same line, the same output, the same number
of statements and the same phase. The texts that were recorded are those of the trees, and so are the
operands that are left. -/
theorem transcript_renders_equations (settings : Settings) (filename text : String) (maxDepth : Int)
    (verbose : Bool) (precision : Option Int) (log otherLog : Array Entry)
    (commandless : ∀ step ∈ documentSteps settings text, step.isCommand = false) :
    let first := transcriptEngine.process settings filename text
      ⟨.start (.start maxDepth), log⟩
    let second := (treeRecordEngine settings).process settings filename text
      ⟨.start ⟨.start settings verbose (some maxDepth) precision, []⟩, otherLog⟩
    first.1 = second.1 ∧ first.2.state.output = second.2.state.output ∧
      first.2.state.statements = second.2.state.statements ∧
      first.2.state.phase = second.2.state.phase ∧
      first.2.state.engine.solved = second.2.state.engine.equations.map Expr.rendering ∧
      first.2.state.stack.topFirst = second.2.state.stack.topFirst.map Expr.rendering := by
  intro first second
  have answered : ∀ step ∈ documentSteps settings text,
      step.IsAnsweredAlike transcriptEngine (treeRecordEngine settings) renderingSimulation := by
    intro step member
    cases step with
    | command line name payload => cases commandless _ member
    | _ => trivial
  have start : renderingSimulation.Matches (Session.start (Transcript.start maxDepth)).forDocument
      (Session.start (ν := Expr) ⟨Solver.start settings verbose (some maxDepth) precision, []⟩).forDocument :=
    { engine := ⟨rfl, rfl, rfl, rfl, rfl⟩
      stack := .nil
      lastOperator := rfl
      phase := rfl
      statements := rfl
      output := fun _ => rfl }
  have matched : first.1 = second.1 ∧ renderingSimulation.Matches first.2.state second.2.state := by
    have ends : renderingSimulation.sessions.Ends (fun _ _ => True) first second :=
      Engine.process_simulates (transcriptEngine_simulates settings) rfl answered start
    generalize first = run at ends ⊢
    generalize second = otherRun at ends ⊢
    cases ends with
    | ok _ states => exact ⟨rfl, states⟩
    | error faults states => exact ⟨congrArg _ (faults.trans (Fault.movedDown_zero _)), states⟩
    | left alone => exact alone.elim
    | right alone => exact alone.elim
  obtain ⟨result, states⟩ := matched
  refine ⟨result, (states.output rfl).trans String.empty_append, ?_, states.phase,
    states.engine.equations, ?_⟩
  · exact Int.natCast_inj.mp (states.statements.trans (Int.add_zero _))
  · rw [← List.forall₂_eq_eq_eq, List.forall₂_map_right_iff]
    exact states.stack

/-- A document with three equations, and a fourth one that has a second equals sign on its line. -/
def threeEquations : String :=
  "for \x7b\x7b x + 2*y = 7[1, z]\n -x^2 = sqrt(whatever) \x7d\x7d\nthe x#r \x7b\x7b u = v; u = v = w \x7d\x7d"

/-- Both engines record the three equations, and stop at the fourth one on the third line. -/
theorem transcript_renders_threeEquations :
    let first := transcriptEngine.process {} "<string>" threeEquations ⟨.start (.start 100), #[]⟩
    let second := (treeRecordEngine {}).process {} "<string>" threeEquations
      ⟨.start ⟨.start {} false (some 100) none, []⟩, #[]⟩
    first.1 = .error ((Cause.reading .secondEquals).onLine 3) ∧ second.1 = first.1 ∧
      second.2.state.output = "for \nthe x#r " ∧ second.2.state.statements = 3 ∧
      second.2.state.engine.equations.map Expr.rendering =
        ["equation(sum(x, product(2, y)), mediation(7, 1, z))",
          "equation(negation(exponentiation(x, 2)), application(sqrt, ?))", "equation(u, v)"] := by
  intro first second
  have commandless : ∀ step ∈ documentSteps {} threeEquations, step.isCommand = false := by
    decide +kernel
  obtain ⟨result, output, statements, _, rendered, _⟩ :=
    transcript_renders_equations {} "<string>" threeEquations 100 false none #[] #[] commandless
  refine ⟨?_, result.symm, output.symm.trans ?_, statements.symm.trans ?_, rendered.symm.trans ?_⟩
  all_goals decide +kernel

end EquationText
