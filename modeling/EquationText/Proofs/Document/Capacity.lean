import EquationText.Proofs.Document.Limits
import EquationText.Proofs.Document.Lines
import EquationText.Proofs.Grammar.Offence

/-! # How the limits for nesting and for operands are related

A statement that is nested to `n` levels asks for room for `4 * n + 1` operands at most, however long it is,
and for every `n` some statement asks for all of it (`EquationText.statement_capacity`). Each level adds four
values that wait for the innermost expression: a term, a factor, the condition of a bracketed pair and the
first expression in it.
-/

namespace EquationText

/-- Whether a context is that of some document. -/
def Context.IsOfDocument (context : Context) : Prop :=
  ∃ text, context.ending = (scan context.settings text).ending

/-- How the statement at the start of some tokens ends when it is read to so many levels and carried out. -/
def Context.statementOutcome (context : Context) (levels : Nat) (tokens : List Token)
    (before : Traced SolverSession) : Except Fault Unit :=
  ((linearEngine context.settings).perform
    (context.statement (context.production levels .expression) tokens).1 before).1

/-- Whether a session may start a statement and has room for some operands. -/
structure IsOpenFor (session : SolverSession) (room : Nat) : Prop where
  ready : session.IsReady
  working : session.engine.closed = false
  room : (room : Int) ≤ session.engine.maxDepth

/-! ## Statements with room -/

/-- The solver never runs out of room for operands. -/
theorem Solver.guards_notFull (settings : Settings) : Guards settings (fun _ => True) (· ≠ .stackFull) where
  solver cause ofSolver := by
    rintro rfl
    cases ofSolver
  digits solver _ cause error := by
    obtain ⟨fault, rfl⟩ := Style.digits_error error
    nofun
  pivot := .inl nofun
  state _ _ _ _ holds := holds
  reporting _ _ holds := holds
  printing _ _ _ holds := holds

variable {context : Context} {session : SolverSession} {log : Array Entry} {levels nesting : Nat}
  {word tokens after : List Token} {tree : Expr} {fault : Fault}

/-- Nor does reading a document. -/
theorem Context.Refuses.ne_stackFull (ofDocument : context.IsOfDocument) (refuses : context.Refuses fault) :
    fault.cause ≠ .stackFull := by
  rcases refuses with ended | ⟨cause, line, rfl, _⟩
  · obtain ⟨text, same⟩ := ofDocument
    obtain ⟨_, found, _⟩ := scan_fault (same.symm.trans ended)
    cases found <;> nofun
  · nofun

theorem IsOpenFor.hasRoom {settings : Settings} {room wanted : Nat} (isOpen : IsOpenFor session room)
    (le : wanted ≤ room) : (linearEngine settings).hasRoom session.engine (wanted : Nat) = true := by
  have enough := isOpen.room
  have fits : (wanted : Int) ≤ session.engine.maxDepth := by omega
  change session.engine.hasRoom (wanted : Nat) = true
  simp only [Solver.hasRoom, isOpen.working, Bool.not_false, Bool.true_and, decide_eq_true fits]

/-- What can be built can be built in part. -/
theorem Engine.exists_build_of_append {σ : Type} {engine : Engine σ Expr} {before last : Traced (Session σ Expr)}
    {first second : List Instruction} (ok : engine.build (first ++ second) before = (.ok (), last)) :
    ∃ middle, engine.build first before = (.ok (), middle) := by
  have whole : engine.build (first ++ second) =
      (engine.build first >>= fun _ => engine.executeAll second) := by
    simp only [build, executeAll_append, Action.bind_assoc]
  rw [whole] at ok
  obtain ⟨_, middle, run, _⟩ := Action.run_bind_eq_ok ok
  exact ⟨middle, run⟩

namespace Context

theorem ne_nil_of_endsStatement (ends : endsStatement after = true) : after ≠ [] := by
  rintro rfl
  cases ends

/-- An equation is read to its end, or the program that is found before it is nested too deeply is a part of
its program. -/
theorem statement_equation (context : Context) (levels : Nat) (derives : DerivesEquation nesting word tree)
    (ends : endsStatement after = true) :
    (∃ line, context.statement (context.production levels .expression) (word ++ after) =
        (.equation line tree.program, some after)) ∨
      levels < nesting ∧ ∃ line program more fault, program ++ more = tree.program ∧
        (context.statement (context.production levels .expression) (word ++ after)).1 =
          .unfinished line true program fault := by
  have read : ∀ {enough}, nesting ≤ enough →
      context.statement (context.production enough .expression) (word ++ after) =
        (.equation (context.lineOf (word ++ after)) tree.program, some after) := fun le =>
    context.statement_of_derives (derives.mono le) (ne_nil_of_endsStatement ends) (.of_endsStatement ends)
  by_cases enough : nesting ≤ levels
  · exact .inl ⟨_, read enough⟩
  have fewer := Nat.lt_of_not_le enough
  have sides : (context.production levels .expression).IsWithin (context.production nesting .expression) :=
    expression_within (context.operand_within context.settings.maxStackDepth context.settings.maxNesting
      (Nat.le_of_lt fewer))
  have within := context.statement_within context.settings.maxStackDepth context.settings.maxNesting sides
    (word ++ after)
  rcases within with same | ⟨_, line, program, more, fault, _, step, other⟩
  · exact .inl ⟨_, same.trans (read (Nat.le_refl nesting))⟩
  · refine .inr ⟨fewer, line, program, more, fault, ?_, step⟩
    have wider : (context.statement (context.production nesting .expression) (word ++ after)).1 =
        .equation (context.lineOf (word ++ after)) tree.program := congrArg Prod.fst (read (Nat.le_refl nesting))
    rcases other with found | ⟨_, found⟩
    · exact ((Step.equation.inj (wider.symm.trans found)).2).symm
    · cases wider.symm.trans found

/-- An equation never fills a stack with room for its nesting. -/
theorem equation_not_full (ofDocument : context.IsOfDocument) (derives : DerivesEquation nesting word tree)
    (ends : endsStatement after = true) (isOpen : IsOpenFor session (4 * nesting + 1))
    (failed : context.statementOutcome levels (word ++ after) ⟨session, log⟩ = .error fault) :
    fault.cause ≠ .stackFull := by
  have room : (linearEngine context.settings).hasRoom session.engine (tree.room : Nat) = true :=
    isOpen.hasRoom derives.room_le
  have sound := context.statement_isSound levels (word ++ after)
  rw [statementOutcome] at failed
  rcases context.statement_equation levels derives ends with
    ⟨line, read⟩ | ⟨_, line, program, more, found, whole, step⟩
  · rw [read] at failed
    exact Engine.equation_confines (Solver.guards_notFull _) isOpen.ready derives room
      (Prod.ext failed rfl)
  · rw [step] at failed sound
    have built := Engine.build_of_room (linearEngine_buildsTrees _) isOpen.ready derives.isWellFormed log room
    rw [← whole] at built
    obtain ⟨middle, part⟩ := Engine.exists_build_of_append built
    rw [Engine.perform_unfinished] at failed
    obtain ⟨stopped, _, run, rfl⟩ := Engine.exists_of_inStatement_error (Prod.ext failed rfl)
    rw [Action.run_bind_of_ok part] at run
    cases run
    rw [Fault.cause_placedAt]
    exact sound.1.ne_stackFull ofDocument

section Command

variable {name payload : String} {line : Nat} {side : Production} (ends : endsStatement after = true)
include ends

theorem statement_command : context.statement side (⟨.command name payload, line⟩ :: after) =
    (.command line name payload, some after) := by
  simp only [statement, context.advance_of_ne_nil (ne_nil_of_endsStatement ends)]
  rfl

/-- A command never fills the stack. -/
theorem command_not_full
    (failed : context.statementOutcome levels (⟨.command name payload, line⟩ :: after) ⟨session, log⟩ =
      .error fault) : fault.cause ≠ .stackFull := by
  rw [statementOutcome, statement_command ends] at failed
  exact Engine.command_confines (Solver.guards_notFull _) (Prod.ext failed rfl)

end Command

end Context

/-! ## Statements that need all of the room -/

/-- A name on the first line. -/
def nameToken (name : String) : Token := ⟨.ident name, 1⟩

/-- `a + b * operand`: two values wait for the operand. -/
def waitingSum (operand : List Token) : List Token :=
  [nameToken "a"] ++ ⟨.operator '+', 1⟩ :: ([nameToken "b"] ++ ⟨.operator '*', 1⟩ :: operand)

/-- The operand `t[a, a + b * operand]` of so many levels: two values more wait for the inner sum. -/
def waitingOperand : Nat → List Token
  | 0 => [nameToken "c"]
  | levels + 1 => [nameToken "t"] ++ ⟨.mark '[', 1⟩ :: ([nameToken "a"] ++ ⟨.mark ',', 1⟩ ::
      (waitingSum (waitingOperand levels) ++ [⟨.mark ']', 1⟩]))

/-- The tree of the sum. -/
def waitingSumTree (operand : Expr) : Expr :=
  .binary .sum (.named "a") (.binary .product (.named "b") operand)

/-- The tree of the operand. -/
def waitingTree : Nat → Expr
  | 0 => .named "c"
  | levels + 1 => .mediation (.named "t") (.named "a") (waitingSumTree (waitingTree levels))

/-- The equation `x = a + b * operand`, nested to one level more than the operand. -/
def waitingEquation (levels : Nat) : List Token :=
  [nameToken "x"] ++ ⟨.operator '=', 1⟩ :: waitingSum (waitingOperand levels)

theorem derives_nameToken (name : String) (levels : Nat) :
    Derives .signed (levels + 1) [nameToken name] (.named name) :=
  .ofPower (.ofPostfixed (.ofPrimary .named))

theorem derives_waitingSum {operand : List Token} {tree : Expr}
    (derives : Derives .postfixed levels operand tree) :
    Derives .expression (levels + 1) (waitingSum operand) (waitingSumTree tree) :=
  .sum (.ofTerm (.ofSigned (derives_nameToken "a" levels)))
    (.product (.ofSigned (derives_nameToken "b" levels)) (.ofPower (.ofPostfixed derives)))

theorem derives_waitingOperand (levels : Nat) :
    Derives .postfixed levels (waitingOperand levels) (waitingTree levels) := by
  induction levels with
  | zero => exact .ofPrimary .named
  | succ levels ih =>
      have first : Derives .expression (levels + 1) [nameToken "a"] (.named "a") :=
        .ofTerm (.ofSigned (derives_nameToken "a" levels))
      exact .mediation (.ofPrimary .named) first (derives_waitingSum ih)

theorem derives_waitingEquation (levels : Nat) :
    DerivesEquation (levels + 1) (waitingEquation levels)
      (.binary .equation (.named "x") (waitingSumTree (waitingTree levels))) :=
  .intro (.ofTerm (.ofSigned (derives_nameToken "x" levels))) (derives_waitingSum (derives_waitingOperand levels))

theorem room_waitingTree (levels : Nat) : (waitingTree levels).room = 4 * levels + 2 := by
  induction levels with
  | zero => rfl
  | succ levels ih =>
      simp only [waitingTree, waitingSumTree, Expr.room, ih]
      omega

theorem room_waitingEquation (levels : Nat) :
    (Expr.binary .equation (.named "x") (waitingSumTree (waitingTree levels))).room = 4 * (levels + 1) + 1 := by
  simp only [waitingSumTree, Expr.room, room_waitingTree]
  omega

/-- The equation has one nesting only that leaves it all of its room. -/
theorem not_isWholeStatement_waitingEquation (levels : Nat) :
    ¬ IsWholeStatement levels (waitingEquation levels) := by
  intro whole
  rcases whole with ⟨tree, derives⟩ | ⟨name, payload, line, command⟩
  · have same := (derives_waitingEquation levels).unique derives
    have bound := derives.room_le
    rw [same, room_waitingEquation] at bound
    omega
  · cases command

/-- Without the last place of its room the equation fills the stack. -/
theorem Context.waitingEquation_full (context : Context) (enough : nesting < levels)
    (ends : endsStatement after = true) (ready : session.IsReady)
    (full : session.engine.maxDepth = 4 * (nesting + 1)) :
    context.statementOutcome levels (waitingEquation nesting ++ after) ⟨session, log⟩ =
      .error (Cause.stackFull.onLine 1) := by
  have derives := derives_waitingEquation nesting
  have read := context.statement_of_derives (derives.mono enough) (ne_nil_of_endsStatement ends)
    (.of_endsStatement ends)
  have short : (linearEngine context.settings).hasRoom session.engine
      ((Expr.binary .equation (.named "x") (waitingSumTree (waitingTree nesting))).room : Nat) = false := by
    rw [room_waitingEquation]
    have large : ¬ ((4 * (nesting + 1) + 1 : Nat) : Int) ≤ session.engine.maxDepth := by omega
    change session.engine.hasRoom _ = false
    simp only [Solver.hasRoom, decide_eq_false large, Bool.and_false]
  rw [statementOutcome, read, Engine.perform_equation_of_no_room (linearEngine_buildsTrees _) ready
    derives.isWellFormed short]
  rfl

/-! ## The limits -/

/-- A statement that is nested to `n` levels at most never fills a stack with room for `4 * n + 1` operands,
and is read to its end where so many levels are allowed. In a stack with room for `4 * n` operands some
statement of nesting `n` ends with a full stack. -/
theorem statement_capacity (n : Nat) (positive : 1 ≤ n) :
    (∀ (context : Context) (levels : Nat) (tokens after : List Token) (session : SolverSession)
        (log : Array Entry), context.IsOfDocument → IsWholeStatement n tokens →
      Context.endsStatement after = true → IsOpenFor session (4 * n + 1) →
      (n ≤ levels →
        (context.statement (context.production levels .expression) (tokens ++ after)).2 = some after) ∧
      ∀ fault, context.statementOutcome levels (tokens ++ after) ⟨session, log⟩ = .error fault →
        fault.cause ≠ .stackFull) ∧
    ∃ tokens, IsWholeStatement n tokens ∧ ¬ IsWholeStatement (n - 1) tokens ∧
      ∀ (context : Context) (levels : Nat) (after : List Token) (session : SolverSession) (log : Array Entry),
        n ≤ levels → Context.endsStatement after = true → session.IsReady →
        session.engine.maxDepth = 4 * n →
        context.statementOutcome levels (tokens ++ after) ⟨session, log⟩ =
          .error (Cause.stackFull.onLine 1) := by
  refine ⟨?_, ?_⟩
  · intro context levels tokens after session log ofDocument whole ends isOpen
    rcases whole with ⟨tree, derives⟩ | ⟨name, payload, line, rfl⟩
    · refine ⟨fun enough => ?_, fun fault => Context.equation_not_full ofDocument derives ends isOpen⟩
      rcases context.statement_equation levels derives ends with ⟨line, read⟩ | ⟨fewer, _⟩
      · rw [read]
      · omega
    · exact ⟨fun _ => congrArg Prod.snd (Context.statement_command ends),
        fun fault => Context.command_not_full ends⟩
  · obtain ⟨levels, rfl⟩ := Nat.exists_eq_add_of_le' positive
    refine ⟨waitingEquation levels, .inl ⟨_, derives_waitingEquation levels⟩,
      not_isWholeStatement_waitingEquation levels, ?_⟩
    intro context more after session log enough ends ready full
    exact context.waitingEquation_full enough ends ready (by omega)

/-- A fresh session with room for so many operands. -/
def freshSessionFor (room : Int) : SolverSession := .start (.start {} false (some room) none)

/-- With one level the equation `x = a + b * c` needs room for five operands. -/
theorem statement_capacity_oneLevel :
    let context : Context := ⟨{}, (scan {} "").ending⟩
    let after : List Token := [⟨.blockClose, 1⟩]
    IsWholeStatement 1 (waitingEquation 0) ∧
      (context.statement (context.production 1 .expression) (waitingEquation 0 ++ after)).2 = some after ∧
      (∀ fault, context.statementOutcome 1 (waitingEquation 0 ++ after) ⟨freshSessionFor 5, #[]⟩ = .error fault →
        fault.cause ≠ .stackFull) ∧
      ∃ tokens, IsWholeStatement 1 tokens ∧
        context.statementOutcome 1 (tokens ++ after) ⟨freshSessionFor 4, #[]⟩ =
          .error (Cause.stackFull.onLine 1) := by
  intro context after
  have whole : IsWholeStatement 1 (waitingEquation 0) := .inl ⟨_, derives_waitingEquation 0⟩
  have isOpen : IsOpenFor (freshSessionFor 5) (4 * 1 + 1) := ⟨⟨rfl, rfl⟩, rfl, by decide⟩
  obtain ⟨within, tokens, isWhole, _, full⟩ := statement_capacity 1 (by decide)
  obtain ⟨read, notFull⟩ := within context 1 _ after _ #[] ⟨"", rfl⟩ whole rfl isOpen
  exact ⟨whole, read (by decide), notFull, tokens, isWhole,
    full context 1 after (freshSessionFor 4) #[] (by decide) rfl ⟨rfl, rfl⟩ rfl⟩

end EquationText
