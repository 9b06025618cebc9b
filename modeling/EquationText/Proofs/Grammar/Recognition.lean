import EquationText.Proofs.Grammar.Statement
import EquationText.Proofs.Session.Equation

/-! # Statements of the grammar

A statement of expression tokens gets through a session that keeps equations exactly when the grammar
derives its tokens as an equation; then they have one tree, and that tree is kept
(`EquationText.statement_getsThrough_iff`).
-/

namespace EquationText

/-- Whether the statement at the start of some tokens, up to the tokens `after`, is read and carried out
without a fault. -/
def Engine.GetsThrough {σ ν : Type} (engine : Engine σ ν) (context : Context) (levels : Nat)
    (tokens after : List Token) (before : Traced (Session σ ν)) : Prop :=
  ∃ step, context.statement (context.expression (context.operand levels)) (tokens ++ after) =
    (step, some after) ∧ (engine.perform step before).1 = .ok ()

/-- The session after a tree was kept. -/
def Session.keeping (session : Session TreeRecord Expr) (tree : Expr) : Session TreeRecord Expr :=
  { session.reset with
    engine := { session.engine with equations := session.engine.equations ++ [tree] }
    statements := session.statements + 1 }

variable {settings : Settings} {context : Context} {levels : Nat} {tokens after : List Token}
  {session : Session TreeRecord Expr} {log : Array Entry} {tree : Expr}

/-- With room for it an equation is kept. -/
theorem perform_equation_keeping (ready : session.IsReady)
    (derives : DerivesEquation levels tokens tree) (line : Nat)
    (room : (treeRecordEngine settings).hasRoom session.engine (tree.room : Nat) = true) :
    (treeRecordEngine settings).perform (.equation line tree.program) ⟨session, log⟩ =
      (.ok (), ⟨session.keeping tree, log⟩) := by
  have trees := treeRecordEngine_buildsTrees settings
  rw [Engine.perform_equation_of_room trees ready derives.isWellFormed room]
  obtain ⟨first, second⟩ := derives
  rfl

/-- The room that a nesting of `levels` levels asks for is room enough for each of its equations. -/
theorem hasRoom_of_derives (opened : session.engine.solver.closed = false)
    (room : 4 * (levels : Int) + 1 ≤ session.engine.solver.maxDepth)
    (derives : DerivesEquation levels tokens tree) :
    (treeRecordEngine settings).hasRoom session.engine (tree.room : Nat) = true := by
  have bound := derives.room_le
  have enough : (tree.room : Int) ≤ session.engine.solver.maxDepth := by omega
  simp [treeRecordEngine, Solver.hasRoom, opened, enough]

/-- A statement of expression tokens gets through exactly when its tokens are those of an equation, nested
to no more than `levels` levels. The tokens have one tree at any nesting, and carrying the statement out
keeps that tree and nothing else. -/
theorem statement_getsThrough_iff
    (expression : ∀ token ∈ tokens, token.lexeme.isOfExpression = true)
    (ends : Context.endsStatement after = true) (ready : session.IsReady)
    (opened : session.engine.solver.closed = false)
    (room : 4 * (levels : Int) + 1 ≤ session.engine.solver.maxDepth) :
    ((treeRecordEngine settings).GetsThrough context levels tokens after ⟨session, log⟩ ↔
      ∃ tree, DerivesEquation levels tokens tree) ∧
    ∀ tree, DerivesEquation levels tokens tree →
      (∀ deeper other, DerivesEquation deeper tokens other → other = tree) ∧
      ∃ step, context.statement (context.expression (context.operand levels)) (tokens ++ after) =
          (step, some after) ∧
        (treeRecordEngine settings).perform step ⟨session, log⟩ =
          (.ok (), ⟨session.keeping tree, log⟩) := by
  have accepted : ∀ tree, DerivesEquation levels tokens tree →
      ∃ step, context.statement (context.expression (context.operand levels)) (tokens ++ after) =
          (step, some after) ∧
        (treeRecordEngine settings).perform step ⟨session, log⟩ =
          (.ok (), ⟨session.keeping tree, log⟩) := by
    intro tree derives
    have remains : after ≠ [] := by
      rintro rfl
      cases ends
    refine ⟨_, context.statement_of_derives derives remains (.of_endsStatement ends), ?_⟩
    exact perform_equation_keeping ready derives _ (hasRoom_of_derives opened room derives)
  have noCommand : ∀ token ∈ (tokens ++ after).head?, ∀ name payload,
      token.lexeme ≠ .command name payload := by
    rintro ⟨lexeme, line⟩ head name payload rfl
    cases tokens with
    | nil =>
        obtain ⟨tail, rfl⟩ := List.head?_eq_some_iff.mp head
        cases ends
    | cons first others =>
        cases head
        cases expression _ (List.mem_cons_self ..)
  refine ⟨⟨?_, fun ⟨tree, derives⟩ => ?_⟩, fun tree derives =>
    ⟨fun _ _ others => derives.unique others, accepted tree derives⟩⟩
  · rintro ⟨step, read, _⟩
    obtain ⟨line, program, rfl⟩ := Context.exists_equation_of_no_command noCommand read
    obtain ⟨word, tree, rest, taken, same, _, _, derives, _⟩ := Context.exists_derives_of_statement read
    cases same
    rw [List.append_cancel_right taken]
    exact ⟨tree, derives⟩
  · obtain ⟨step, read, run⟩ := accepted tree derives
    exact ⟨step, read, congrArg Prod.fst run⟩

/-- The tokens of `-x ^ 2 ^ -y = whatever[1, y]`. -/
def signedPower : List Token :=
  [⟨.operator '-', 1⟩, ⟨.ident "x", 1⟩, ⟨.operator '^', 1⟩, ⟨.number (.finite 2), 1⟩,
    ⟨.operator '^', 1⟩, ⟨.operator '-', 1⟩, ⟨.ident "y", 1⟩, ⟨.operator '=', 1⟩,
    ⟨.keyword "whatever", 1⟩, ⟨.mark '[', 1⟩, ⟨.number (.finite 1), 1⟩, ⟨.mark ',', 1⟩,
    ⟨.ident "y", 1⟩, ⟨.mark ']', 1⟩]

/-- The tree of the tokens. -/
def signedPowerTree : Expr :=
  .binary .equation
    (.negation (.binary .exponentiation (.named "x")
      (.binary .exponentiation (.number (.finite 2)) (.negation (.named "y")))))
    (.mediation .anonymous (.number (.finite 1)) (.named "y"))

theorem derives_signedPower : DerivesEquation 5 signedPower signedPowerTree := by
  have negated : Derives .signed 2 [⟨.operator '-', 1⟩, ⟨.ident "y", 1⟩] (.negation (.named "y")) :=
    .minus (.ofPower (.ofPostfixed (.ofPrimary .named)))
  have inner := @Derives.power _ [⟨.number (.finite 2), 1⟩] _ _ _ 1 (.ofPrimary .number) negated
  have outer := @Derives.power _ [⟨.ident "x", 1⟩] _ _ _ 1 (.ofPrimary .named) (.ofPower inner)
  have left := @Derives.minus _ _ _ 1 (.ofPower outer)
  have right := @Derives.mediation 4 [⟨.keyword "whatever", 1⟩] [⟨.number (.finite 1), 1⟩]
    [⟨.ident "y", 1⟩] _ _ _ 1 1 1 (.ofPrimary .anonymous)
    (.ofTerm (.ofSigned (.ofPower (.ofPostfixed (.ofPrimary .number)))))
    (.ofTerm (.ofSigned (.ofPower (.ofPostfixed (.ofPrimary .named)))))
  exact .intro (.ofTerm (.ofSigned left)) (.ofTerm (.ofSigned (.ofPower (.ofPostfixed right))))

/-- A fresh session that keeps equations. -/
def keepingSession : Session TreeRecord Expr := .start ⟨.start {} false none none, []⟩

/-- The tokens of `-x ^ 2 ^ -y = whatever[1, y]` get through with five levels, where their tree is kept,
and have no derivation with four. -/
theorem statement_getsThrough_signedPower :
    (∃ step, Context.statement ⟨{}, .ok 1⟩ (Context.expression ⟨{}, .ok 1⟩
          (Context.operand ⟨{}, .ok 1⟩ 5)) (signedPower ++ [⟨.blockClose, 1⟩]) =
        (step, some [⟨.blockClose, 1⟩]) ∧
      (treeRecordEngine {}).perform step ⟨keepingSession, #[]⟩ =
        (.ok (), ⟨keepingSession.keeping signedPowerTree, #[]⟩)) ∧
    ¬ ∃ tree, DerivesEquation 4 signedPower tree := by
  have tokens : ∀ token ∈ signedPower, token.lexeme.isOfExpression = true := by decide
  constructor
  · exact ((statement_getsThrough_iff tokens rfl ⟨rfl, rfl⟩ rfl (by decide)).2 signedPowerTree
      derives_signedPower).2
  · intro derives
    have getsThrough : (treeRecordEngine {}).GetsThrough ⟨{}, .ok 1⟩ 4 signedPower [⟨.blockClose, 1⟩]
        ⟨keepingSession, #[]⟩ :=
      (statement_getsThrough_iff tokens rfl ⟨rfl, rfl⟩ rfl (by decide)).1.mpr derives
    obtain ⟨step, read, _⟩ := getsThrough
    have refused : (Context.statement ⟨{}, .ok 1⟩ (Context.expression ⟨{}, .ok 1⟩
        (Context.operand ⟨{}, .ok 1⟩ 4)) (signedPower ++ [⟨.blockClose, 1⟩])).2 = none := by
      decide +kernel
    rw [read] at refused
    cases refused

end EquationText
