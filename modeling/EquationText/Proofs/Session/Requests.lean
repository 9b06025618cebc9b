import EquationText.Proofs.Session.Calls
import EquationText.Proofs.Solver.Refusal

/-! # Requests in any order

What builds a statement, and what opens and ends it, may be asked of a session in any order. Its operands never
outgrow the stack, the operator that it remembers is the one at the root of its topmost operand, and whatever
ends a statement leaves the session ready for another one (`EquationText.requests_in_any_order`).
-/

namespace EquationText

/-- Something asked of a session: to build, or to open, end or drop a statement. -/
inductive SessionRequest
  | pushNamed (name : String)
  | pushAnonymous
  | pushNumber (value : Double)
  | applyUnary (operator : Operator)
  | applyBinary (operator : Operator)
  | applyTernary (operator : Operator)
  | clearOperands
  | begin
  | finishEquation
  | dispatchCommand (name payload : String)
  | reset

namespace SessionRequest

/-- Whether a request only builds. -/
def isOfBuilding : SessionRequest → Bool
  | pushNamed _ | pushAnonymous | pushNumber _ | applyUnary _ | applyBinary _ | applyTernary _ | clearOperands =>
    true
  | begin | finishEquation | dispatchCommand _ _ | reset => false

/-- The operator that a request applies. -/
def operator? : SessionRequest → Option Operator
  | applyUnary operator | applyBinary operator | applyTernary operator => some operator
  | _ => none

/-- Whether a request ends a statement. -/
def isOfEnding : SessionRequest → Bool
  | finishEquation | dispatchCommand _ _ => true
  | _ => false

end SessionRequest

variable {σ ν : Type}

namespace Engine

/-- Does what a session is asked for. -/
def answer (engine : Engine σ ν) : SessionRequest → Action (Session σ ν) Unit
  | .pushNamed name => engine.pushNamed name
  | .pushAnonymous => engine.pushAnonymous
  | .pushNumber value => engine.pushNumber value
  | .applyUnary operator => engine.applyUnary operator
  | .applyBinary operator => engine.applyBinary operator
  | .applyTernary operator => engine.applyTernary operator
  | .clearOperands => Action.modify Session.clearOperands
  | .begin => Session.begin
  | .finishEquation => do
    let _ ← engine.finishEquation
    return
  | .dispatchCommand name payload => engine.dispatchCommand name payload
  | .reset => Action.modify Session.reset

/-- Does what a session is asked for, one request after another and whatever comes of them: what each came to,
and what they leave. -/
def answerAll (engine : Engine σ ν) : List SessionRequest → Traced (Session σ ν) →
    List (SessionRequest × Except Fault Unit) × Traced (Session σ ν)
  | [], before => ([], before)
  | request :: rest, before =>
    let (outcome, middle) := engine.answer request before
    let (answers, after) := engine.answerAll rest middle
    ((request, outcome) :: answers, after)

end Engine

/-- The number of statements that some requests have ended successfully. -/
def countEnded (answers : List (SessionRequest × Except Fault Unit)) : Nat :=
  answers.countP fun answer => answer.1.isOfEnding && answer.2.isOk

theorem countEnded_cons (request : SessionRequest) (outcome : Except Fault Unit)
    (answers : List (SessionRequest × Except Fault Unit)) :
    countEnded ((request, outcome) :: answers) =
      (if request.isOfEnding && outcome.isOk then 1 else 0) + countEnded answers := by
  rw [countEnded, List.countP_cons, Nat.add_comm]
  rfl

/-- Whether a session between two requests, of which `ended` have ended a statement, is in order. -/
structure Session.IsInOrder (session : Session Solver Expr) (maxDepth : Int) (ended : Nat) : Prop where
  limit : session.engine.maxDepth = maxDepth
  depth : (session.stack.depth : Int) ≤ maxDepth
  top : ∀ operator, session.lastOperator = some operator →
    ∀ value ∈ session.stack.topFirst.head?, value.operator? = some operator
  phase : session.phase = .idle ∨ session.phase = .accumulating
  statements : session.statements = ended

/-- What a request does to a session, depending on what it comes to. -/
structure SessionRequest.Effect (request : SessionRequest) (before : Traced (Session Solver Expr))
    (outcome : Except Fault Unit) (after : Traced (Session Solver Expr)) : Prop where
  /-- Building that fails changes nothing. -/
  unchanged : request.isOfBuilding = true → outcome.isOk = false → after = before
  /-- An operator replaces its operands by the node that holds them in the order in which they were pushed. -/
  applied : ∀ operator, request.operator? = some operator → outcome.isOk = true →
    ∃ operands below value, operands.length = operator.arity ∧
      before.state.stack.topFirst = operands.reverse ++ below ∧
      value.operator? = some operator ∧ value.children = operands ∧
      after = ⟨before.state.holding ⟨value :: below⟩ (some operator), before.log⟩
  /-- The end of a statement leaves nothing of it behind. -/
  ended : request.isOfEnding = true → after.state.IsReady ∧ after.state.lastOperator = none ∧
    after.state.statements = before.state.statements + if outcome.isOk then 1 else 0

/-! ## Building -/

/-- What an operator builds has this operator at its root and the operands below it. -/
theorem Expr.of_ofOperands {operator : Operator} {operands : List Expr} {value : Expr}
    (built : ofOperands operator operands = .ok value) :
    value.operator? = some operator ∧ value.children = operands := by
  unfold ofOperands at built
  split at built
  · cases built
    exact ⟨rfl, rfl⟩
  · cases built
    exact ⟨rfl, rfl⟩
  · cases built
    exact ⟨rfl, rfl⟩
  · split at built
    · cases built
      exact ⟨rfl, rfl⟩
    · cases built
  · cases built

namespace Engine

variable {engine : Engine σ ν} {before : Traced (Session σ ν)}

/-- An operand is pushed if there is room for it, and nothing changes otherwise. -/
theorem pushOperand_cases (engine : Engine σ ν) (extra : Nat) (value : ν) (before : Traced (Session σ ν)) :
    engine.pushOperand extra value before = (.error Cause.stackFull.unplaced, before) ∨
      engine.hasRoom before.state.engine ((before.state.stack.depth + extra : Nat) : Int) = true ∧
      engine.pushOperand extra value before =
        (.ok (), ⟨before.state.holding (before.state.stack.push value) none, before.log⟩) := by
  cases room : engine.hasRoom before.state.engine ((before.state.stack.depth + extra : Nat) : Int) with
  | true =>
      refine .inr ⟨rfl, ?_⟩
      rw [pushOperand, Action.run_bind_of_ok (ensureRoom_of_room before room)]
      rfl
  | false =>
      refine .inl ?_
      rw [pushOperand, Action.run_bind_of_error (ensureRoom_of_no_room before room)]

/-- An operator replaces its operands by what it builds of them, or nothing changes. -/
theorem apply_cases (engine : Engine σ ν) (operator : Operator) (before : Traced (Session σ ν)) :
    (∃ fault, engine.apply operator before = (.error fault, before)) ∨
      ∃ operands below value, operands.length = operator.arity ∧
        before.state.stack.topFirst = operands.reverse ++ below ∧
        engine.construct operator operands = .ok value ∧
        engine.hasRoom before.state.engine ((before.state.stack.depth + 1 : Nat) : Int) = true ∧
        engine.apply operator before =
          (.ok (), ⟨before.state.holding ⟨value :: below⟩ (some operator), before.log⟩) := by
  cases room : engine.hasRoom before.state.engine ((before.state.stack.depth + 1 : Nat) : Int) with
  | false => exact .inl ⟨_, Action.run_bind_of_error (ensureRoom_of_no_room before room)⟩
  | true =>
      unfold apply
      rw [Action.run_bind_of_ok (ensureRoom_of_room before room), Action.run_bind_of_ok Action.run_get]
      split
      · exact .inl ⟨_, rfl⟩
      · cases popped : before.state.stack.pop operator.arity with
        | error cause => exact .inl ⟨_, rfl⟩
        | ok pair =>
            obtain ⟨operands, below⟩ := pair
            cases built : engine.construct operator operands with
            | error cause =>
                refine .inl ⟨cause.unplaced, ?_⟩
                simp only [Action.ofExcept, bind, pure, built]
                rfl
            | ok value =>
                have all := (OperandStack.length_of_pop popped).1 (Int.natCast_nonneg _)
                refine .inr ⟨operands, below.topFirst, value, Int.ofNat_inj.mp all,
                  OperandStack.topFirst_of_pop popped, built, rfl, ?_⟩
                simp only [Action.ofExcept, bind, pure, built]
                rfl

/-- A request for an operator applies it, unless it takes another number of operands. -/
theorem answer_of_operator (engine : Engine σ ν) {request : SessionRequest} {operator : Operator}
    (applies : request.operator? = some operator) :
    engine.answer request = engine.apply operator ∨ ∃ cause, engine.answer request = Action.failWith cause := by
  cases request with
  | applyUnary found =>
      cases applies
      rw [answer, applyUnary]
      split
      · exact .inl rfl
      · exact .inr ⟨_, rfl⟩
  | applyBinary found =>
      cases applies
      rw [answer, applyBinary]
      split
      · exact .inl rfl
      · exact .inr ⟨_, rfl⟩
  | applyTernary found =>
      cases applies
      rw [answer, applyTernary]
      split
      · exact .inl rfl
      · exact .inr ⟨_, rfl⟩
  | _ => cases applies

/-! ## Ending statements -/

/-- What an engine does once it is asked to solve an equation or to carry out a command leaves its limits alone
and is counted if it succeeds. -/
structure Counts {α : Type} (limit : σ → Int) (before : Traced (Session σ ν))
    (run : Except Fault α × Traced (Session σ ν)) : Prop where
  limit : limit run.2.state.engine = limit before.state.engine
  statements : run.2.state.statements = before.state.statements + if run.1.isOk then 1 else 0

/-- The engine works on its own state only. -/
theorem counts_onEngine {α β : Type} {limit : σ → Int} {action : Action σ α}
    (next : α → Action (Session σ ν) β)
    (kept : ∀ before, limit (action before).2.state = limit before.state) (before : Traced (Session σ ν))
    (counted : ∀ a middle, ∃ b log, next a middle =
      (.ok b, ⟨{ middle.state with statements := middle.state.statements + 1 }, log⟩)) :
    Counts limit before ((Session.onEngine action >>= next) before) := by
  have same := kept ⟨before.state.engine, before.log⟩
  rcases run : action ⟨before.state.engine, before.log⟩ with ⟨fault | a, middle⟩
  · rw [run] at same
    have stopped : Session.onEngine action before =
        (.error fault, ⟨{ before.state with engine := middle.state }, middle.log⟩) := by
      simp only [Session.onEngine, Action.within, run]
    rw [Action.run_bind_of_error stopped]
    exact ⟨same, rfl⟩
  · rw [run] at same
    have done : Session.onEngine action before =
        (.ok a, ⟨{ before.state with engine := middle.state }, middle.log⟩) := by
      simp only [Session.onEngine, Action.within, run]
    obtain ⟨b, log, last⟩ := counted a ⟨{ before.state with engine := middle.state }, middle.log⟩
    rw [Action.run_bind_of_ok done, last]
    exact ⟨same, rfl⟩

theorem countSolved_eq (bindings : List Binding) (middle : Traced (Session σ ν)) :
    ∃ log, countSolved bindings middle =
      (.ok bindings, ⟨{ middle.state with statements := middle.state.statements + 1 }, log⟩) := by
  unfold countSolved
  rw [Action.run_bind_of_ok (Action.run_modify _), Action.run_bind_of_ok Action.run_get]
  split
  · exact ⟨_, rfl⟩
  · exact ⟨_, rfl⟩

theorem submitEquation_counts {limit : σ → Int}
    (kept : ∀ value before, limit (engine.solve value before).2.state = limit before.state)
    (before : Traced (Session σ ν)) : Counts limit before (engine.submitEquation before) := by
  by_cases ready : ∃ value, before.state.result? = some value ∧ before.state.lastOperator = some .equation
  · obtain ⟨value, result, last⟩ := ready
    rw [submitEquation_of_result result last]
    obtain ⟨limit, statements⟩ := counts_onEngine countSolved (kept value)
      ⟨{ before.state with phase := .equation }, before.log⟩ fun bindings middle =>
        ⟨bindings, countSolved_eq bindings middle⟩
    exact ⟨limit, statements⟩
  · rw [submitEquation_of_no_result ready]
    exact ⟨rfl, rfl⟩

theorem submitCommand_counts {limit : σ → Int} {name payload : String}
    (kept : ∀ before, limit (engine.command name payload before).2.state = limit before.state)
    (before : Traced (Session σ ν)) : Counts limit before (engine.submitCommand name payload before) := by
  unfold submitCommand
  rw [Action.run_bind_of_ok (Action.run_modify _), Action.run_bind_of_ok (Action.run_report ..)]
  obtain ⟨limit, statements⟩ := counts_onEngine _ kept _ fun _ middle => ⟨(), middle.log, rfl⟩
  exact ⟨limit, statements⟩

/-- Whether a run ends a statement: it is counted if it succeeds, and nothing of it is left behind. -/
structure Ends (limit : σ → Int) (before : Traced (Session σ ν))
    (run : Except Fault Unit × Traced (Session σ ν)) : Prop where
  counts : Counts limit before run
  ready : run.2.state.IsReady
  forgotten : run.2.state.lastOperator = none

/-- A request that ends a statement leaves no operands and no last operator, whatever the engine answers. -/
theorem answer_ends {limit : σ → Int}
    (solves : ∀ value before, limit (engine.solve value before).2.state = limit before.state)
    (commands : ∀ name payload before, limit (engine.command name payload before).2.state = limit before.state)
    {request : SessionRequest} (ending : request.isOfEnding = true) (before : Traced (Session σ ν)) :
    Ends limit before (engine.answer request before) := by
  cases request with
  | finishEquation =>
      obtain ⟨limits, statements⟩ := submitEquation_counts solves before
      rcases run : engine.submitEquation before with ⟨fault | bindings, after⟩
      · rw [run] at limits statements
        have ended : engine.finishEquation before = (.error fault, ⟨after.state.reset, after.log⟩) := by
          simp only [finishEquation, Action.andFinally, run]
        rw [answer, Action.run_bind_of_error ended]
        exact ⟨⟨limits, statements⟩, after.state.reset_isReady, rfl⟩
      · rw [run] at limits statements
        have ended : engine.finishEquation before = (.ok bindings, ⟨after.state.reset, after.log⟩) := by
          simp only [finishEquation, Action.andFinally, run]
        rw [answer, Action.run_bind_of_ok ended]
        exact ⟨⟨limits, statements⟩, after.state.reset_isReady, rfl⟩
  | dispatchCommand name payload =>
      obtain ⟨limits, statements⟩ := submitCommand_counts (commands name payload) before
      exact ⟨⟨limits, statements⟩, Session.reset_isReady _, rfl⟩
  | _ => cases ending

end Engine

/-! ## The linear engine -/

variable {settings : Settings} {maxDepth : Int} {ended : Nat} {before : Traced (Session Solver Expr)}

theorem Solver.command_keeps_maxDepth (settings : Settings) (name payload : String) (before : Traced Solver) :
    (command settings name payload before).2.state.maxDepth = before.state.maxDepth :=
  command_keeps (P := fun solver => solver.maxDepth = before.state.maxDepth) (fun _ _ same => same)
    (fun _ _ _ same => same) name payload before rfl

theorem linearEngine_answer_ends (settings : Settings) {request : SessionRequest} (ending : request.isOfEnding = true)
    (before : Traced (Session Solver Expr)) :
    Engine.Ends Solver.maxDepth before ((linearEngine settings).answer request before) :=
  Engine.answer_ends (fun equation before => (Solver.solve_keeps_configuration settings equation before).2.2.1)
    (Solver.command_keeps_maxDepth settings) ending before

/-- A request does to a session what it is to do. -/
theorem linearEngine_answer_effect (settings : Settings) (request : SessionRequest)
    (before : Traced (Session Solver Expr)) :
    request.Effect before ((linearEngine settings).answer request before).1
      ((linearEngine settings).answer request before).2 where
  unchanged building failed := by
    have pushed (extra : Nat) (value : Expr)
        (fails : ((linearEngine settings).pushOperand extra value before).1.isOk = false) :
        ((linearEngine settings).pushOperand extra value before).2 = before := by
      rcases Engine.pushOperand_cases (linearEngine settings) extra value before with run | ⟨_, run⟩
      · rw [run]
      · rw [run] at fails
        cases fails
    have applied (operator : Operator) (applies : request.operator? = some operator) :
        ((linearEngine settings).answer request before).2 = before := by
      rcases Engine.answer_of_operator (linearEngine settings) applies with same | ⟨cause, same⟩
      · rw [same] at failed ⊢
        rcases Engine.apply_cases (linearEngine settings) operator before with
          ⟨fault, run⟩ | ⟨_, _, _, _, _, _, _, run⟩
        · rw [run]
        · rw [run] at failed
          cases failed
      · rw [same]
        rfl
    cases request with
    | pushNamed name => exact pushed _ _ failed
    | pushAnonymous => exact pushed _ _ failed
    | pushNumber value => exact pushed _ _ failed
    | applyUnary operator => exact applied operator rfl
    | applyBinary operator => exact applied operator rfl
    | applyTernary operator => exact applied operator rfl
    | clearOperands => cases failed
    | _ => cases building
  applied operator applies succeeded := by
    rcases Engine.answer_of_operator (linearEngine settings) applies with same | ⟨cause, same⟩
    · rw [same] at succeeded ⊢
      rcases Engine.apply_cases (linearEngine settings) operator before with
        ⟨fault, run⟩ | ⟨operands, below, value, all, top, built, _, run⟩
      · rw [run] at succeeded
        cases succeeded
      · rw [run]
        obtain ⟨root, held⟩ := Expr.of_ofOperands built
        exact ⟨operands, below, value, all, top, root, held, rfl⟩
    · rw [same] at succeeded
      cases succeeded
  ended ending := by
    obtain ⟨counts, ready, forgotten⟩ := linearEngine_answer_ends settings ending before
    exact ⟨ready, forgotten, counts.statements⟩

namespace Session.IsInOrder

variable {session : Session Solver Expr}

theorem start {solver : Solver} (limit : 0 ≤ solver.maxDepth) :
    (Session.start solver : Session Solver Expr).IsInOrder solver.maxDepth 0 where
  limit := rfl
  depth := limit
  top := nofun
  phase := .inl rfl
  statements := rfl

/-- Without operands nothing has to be remembered of them. -/
theorem clearOperands (order : session.IsInOrder maxDepth ended) (limit : 0 ≤ maxDepth) :
    session.clearOperands.IsInOrder maxDepth ended where
  limit := order.limit
  depth := limit
  top := nofun
  phase := order.phase
  statements := order.statements

/-- A session stays in order when an operand is pushed: there is room for it, or it is refused. -/
theorem pushOperand (order : before.state.IsInOrder maxDepth ended) (extra : Nat) (positive : 0 < extra)
    (value : Expr) :
    ((linearEngine settings).pushOperand extra value before).2.state.IsInOrder maxDepth ended := by
  rcases Engine.pushOperand_cases (linearEngine settings) extra value before with run | ⟨room, run⟩
  · rwa [run]
  · rw [run]
    refine ⟨order.limit, ?_, nofun, order.phase, order.statements⟩
    have enough : ((before.state.stack.depth + extra : Nat) : Int) ≤ maxDepth := by
      rw [← order.limit]
      exact of_decide_eq_true (Bool.and_eq_true _ _ ▸ room).2
    have pushed : (before.state.stack.push value).depth = before.state.stack.depth + 1 := rfl
    change ((before.state.stack.push value).depth : Int) ≤ maxDepth
    omega

/-- A session stays in order when an operator is applied: one value takes the place of its operands. -/
theorem apply (order : before.state.IsInOrder maxDepth ended) (operator : Operator) :
    ((linearEngine settings).apply operator before).2.state.IsInOrder maxDepth ended := by
  rcases Engine.apply_cases (linearEngine settings) operator before with
    ⟨fault, run⟩ | ⟨operands, below, value, all, top, built, _, run⟩
  · rwa [run]
  · rw [run]
    refine ⟨order.limit, ?_, ?_, order.phase, order.statements⟩
    · have taken : 0 < operands.length := by
        rw [all]
        cases operator <;> decide
      have depth : before.state.stack.depth = operands.length + below.length := by
        rw [OperandStack.depth, top, List.length_append, List.length_reverse]
      have room := order.depth
      change ((below.length + 1 : Nat) : Int) ≤ maxDepth
      omega
    · rintro _ ⟨⟩ _ ⟨⟩
      exact (Expr.of_ofOperands built).1

/-- What is asked of a session in order leaves it in order. -/
theorem answer (order : before.state.IsInOrder maxDepth ended) (settings : Settings) (limit : 0 ≤ maxDepth)
    (request : SessionRequest) :
    ((linearEngine settings).answer request before).2.state.IsInOrder maxDepth
      (ended + if request.isOfEnding && ((linearEngine settings).answer request before).1.isOk then 1 else 0) := by
  have applied (operator : Operator) (applies : request.operator? = some operator) :
      ((linearEngine settings).answer request before).2.state.IsInOrder maxDepth ended := by
    rcases Engine.answer_of_operator (linearEngine settings) applies with same | ⟨cause, same⟩
    · rw [same]
      exact order.apply operator
    · rwa [same]
  cases ending : request.isOfEnding with
  | true =>
      obtain ⟨⟨limits, statements⟩, ready, forgotten⟩ := linearEngine_answer_ends settings ending before
      refine ⟨limits.trans order.limit, ?_, ?_, .inl ready.idle, ?_⟩
      · rwa [ready.empty]
      · rw [forgotten]
        nofun
      · rw [statements, order.statements, Bool.true_and]
  | false =>
      simp only [Bool.false_and, Bool.false_eq_true, ↓reduceIte, Nat.add_zero]
      cases request with
      | pushNamed name => exact order.pushOperand 2 Nat.two_pos _
      | pushAnonymous => exact order.pushOperand 1 Nat.one_pos _
      | pushNumber value => exact order.pushOperand 2 Nat.two_pos _
      | applyUnary operator => exact applied operator rfl
      | applyBinary operator => exact applied operator rfl
      | applyTernary operator => exact applied operator rfl
      | clearOperands => exact order.clearOperands limit
      | reset => exact { order.clearOperands limit with phase := .inl rfl }
      | begin =>
          rcases order.phase with idle | accumulating
          · have opened : Session.begin before =
                (.ok (), ⟨before.state.building before.state.stack before.state.lastOperator, before.log⟩) :=
              Session.begin_of_idle idle
            rw [Engine.answer, opened]
            exact { order with phase := .inr rfl }
          · have refused : Session.begin before =
                (.error (Cause.reading (.statementOpen before.state.phase)).unplaced, before) := by
              rw [Session.begin, Action.run_bind_of_ok Action.run_get, accumulating]
              rfl
            rwa [Engine.answer, refused]
      | _ => cases ending

/-- What is asked of a session in order, one request after another, leaves it in order. -/
theorem answerAll (settings : Settings) (limit : 0 ≤ maxDepth) (requests : List SessionRequest)
    (before : Traced (Session Solver Expr)) (order : before.state.IsInOrder maxDepth ended) :
    ((linearEngine settings).answerAll requests before).2.state.IsInOrder maxDepth
      (ended + countEnded ((linearEngine settings).answerAll requests before).1) := by
  induction requests generalizing before ended with
  | nil => exact order
  | cons request rest ih =>
      have whole := ih _ (order.answer settings limit request)
      rw [Nat.add_assoc, ← countEnded_cons] at whole
      exact whole

variable {solve : Expr → Action Solver (List Binding)}
  (alike : ∀ left right, solve (.binary .equation left right) = Solver.solve settings (.binary .equation left right))
include alike

/-- Only equations are handed over from a session in order. -/
theorem answer_answering (order : before.state.IsInOrder maxDepth ended) (request : SessionRequest) :
    ((linearEngine settings).answering solve (Solver.command settings)).answer request before =
      (linearEngine settings).answer request before := by
  cases request with
  | finishEquation =>
      refine Action.run_bind_congr (Engine.finishEquation_answering ?_)
      intro call asked
      unfold Engine.solveCall? at asked
      split at asked
      · rename_i value result last
        cases asked
        have held : before.state.stack.topFirst = [value] := by
          unfold Session.result? at result
          split at result
          · rename_i single top
            cases result
            exact top
          · cases result
        have root := order.top .equation last value (by rw [held]; rfl)
        cases value with
        | binary operator left right =>
            cases root
            exact congrFun (alike left right) _
        | _ => cases root
      · cases asked
  | _ => rfl

theorem answerAll_answering (limit : 0 ≤ maxDepth) (requests : List SessionRequest)
    (before : Traced (Session Solver Expr)) (order : before.state.IsInOrder maxDepth ended) :
    ((linearEngine settings).answering solve (Solver.command settings)).answerAll requests before =
      (linearEngine settings).answerAll requests before := by
  induction requests generalizing before ended with
  | nil => rfl
  | cons request rest ih =>
      simp only [Engine.answerAll, order.answer_answering alike request, ih _ (order.answer settings limit request)]

end Session.IsInOrder

/-- **Requests in any order.** The operands of a session stay within its limit, the operator that it remembers is
that of its topmost operand, it is idle or has an open statement, and it counts the statements that were ended
successfully; a further request does what it is to do, and only equations are ever handed over to be solved. -/
theorem requests_in_any_order (settings : Settings) {solver : Solver} (limit : 0 ≤ solver.maxDepth)
    (requests : List SessionRequest) (log : Array Entry) :
    let engine := linearEngine settings
    let run := engine.answerAll requests ⟨.start solver, log⟩
    run.2.state.IsInOrder solver.maxDepth (countEnded run.1) ∧
      (∀ request : SessionRequest,
        request.Effect run.2 (engine.answer request run.2).1 (engine.answer request run.2).2) ∧
      ∀ solve, (∀ left right,
          solve (.binary .equation left right) = engine.solve (.binary .equation left right)) →
        (engine.answering solve engine.command).answerAll requests ⟨.start solver, log⟩ = run := by
  have order := Session.IsInOrder.start limit
  refine ⟨?_, fun request => linearEngine_answer_effect settings request _, fun solve alike => ?_⟩
  · have whole := Session.IsInOrder.answerAll settings limit requests ⟨.start solver, log⟩ order
    rwa [Nat.zero_add] at whole
  · exact Session.IsInOrder.answerAll_answering alike limit requests ⟨.start solver, log⟩ order

/-- Requests of which some fail: for a sum of one operand, for a sum as a sign, without room for another operand,
and for the end of a statement with two operands. -/
def strayRequests : List SessionRequest :=
  [.begin, .pushNamed "x", .applyBinary .sum, .pushNumber (.ofDecimal 2 0), .pushNumber (.ofDecimal 3 0),
    .applyBinary .equation, .applyUnary .sum, .finishEquation, .begin, .pushAnonymous, .pushAnonymous,
    .finishEquation, .dispatchCommand "digits" "3"]

/-- A session with room for three operands stays in order. -/
theorem requests_in_any_order_stray :
    let run := (linearEngine {}).answerAll strayRequests ⟨.start (.start {} false (some 3) none), #[]⟩
    run.2.state.IsInOrder 3 2 ∧ run.2.state.stack = .empty ∧
      run.1.map (·.2.isOk) = [true, true, false, true, false, true, false, true, true, true, true, false, true] := by
  have limit : 0 ≤ (Solver.start {} false (some 3) none).maxDepth := by decide
  have ended : countEnded ((linearEngine {}).answerAll strayRequests
      ⟨.start (.start {} false (some 3) none), #[]⟩).1 = 2 := by decide +kernel
  have order := (requests_in_any_order {} limit strayRequests #[]).1
  rw [ended] at order
  exact ⟨order, by decide +kernel, by decide +kernel⟩

end EquationText
