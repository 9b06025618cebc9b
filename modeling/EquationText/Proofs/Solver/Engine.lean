import EquationText.Proofs.Session
import EquationText.Proofs.Solver.Refusal

/-! # What the linear engine keeps

The linear engine of a session stays reduced, keeps the solved names it has, and never knows of a name
that no equation has (`EquationText.linearEngine_maintains`).
-/

namespace EquationText

namespace Solver

/-- A reduced solver that has kept some solved names and does not know of a name, unless that is the
imaginary unit's. -/
structure Continues (omitted : String) (earlier : List (String × Number)) (solver : Solver) :
    Prop where
  reduced : solver.IsReduced
  unmet : .named omitted ∈ solver.unknowns → omitted = imaginaryName
  solved : earlier <+: solver.solved

variable {settings : Settings} {omitted : String} {earlier : List (String × Number)}
  {solver before after : Solver} {equation : Expr}

theorem start_continues (settings : Settings) (verbose : Bool) (maxDepth precision : Option Int)
    (omitted : String) : (start settings verbose maxDepth precision).Continues omitted [] where
  reduced := start_isReduced settings verbose maxDepth precision
  unmet := by
    intro inside
    cases List.mem_singleton.mp inside
    rfl
  solved := List.nil_prefix

/-- How a solver reports does not matter. -/
theorem Continues.reporting (continues : solver.Continues omitted earlier) (verbose : Bool)
    (precision : Int) : { solver with verbose, precision }.Continues omitted earlier where
  reduced :=
    { distinct := continues.reduced.distinct
      imaginary := continues.reduced.imaginary
      free := continues.reduced.free
      created := continues.reduced.created
      solved := continues.reduced.solved
      solvedDistinct := continues.reduced.solvedDistinct
      finite := continues.reduced.finite }
  unmet := continues.unmet
  solved := continues.solved

/-- An accepted equation without a name does not bring the name in. -/
theorem Continues.accept {left right solution : Form} {created : Nat} {unknown : Unknown}
    (continues : before.Continues omitted earlier) (absent : omitted ∉ equation.names)
    (accepts : Accepts settings before equation after left right created unknown solution) :
    after.Continues omitted earlier where
  reduced := continues.reduced.accept accepts
  unmet := by
    intro inside
    rcases continues.reduced.mem_unknowns_accept accepts inside with old | new
    · exact continues.unmet old
    · rcases mem_unknowns_sides accepts.sides (Form.mem_unknowns_sub new) with
        ⟨name, member, mentioned⟩ | ⟨serial, same, _⟩
      · rcases IsReduced.mem_unknowns_formOf mentioned with old | same
        · exact continues.unmet old
        · cases same
          exact (absent member).elim
      · cases same
  solved := continues.solved.trans (continues.reduced.solved_prefix accepts)

/-- A name that no equation has is not solved, and neither is the imaginary unit. -/
theorem Continues.valueOf?_solved (continues : solver.Continues omitted earlier) {name : String}
    (reserved : name = imaginaryName ∨ name = omitted) : valueOf? name solver.solved = none := by
  refine valueOf?_eq_none_iff.mpr fun inside => ?_
  have imaginary : name = imaginaryName := by
    rcases reserved with same | rfl
    · exact same
    · exact continues.unmet
        (mem_unknowns_iff.mpr (.inl (continues.reduced.mem_eliminated_of_solved inside)))
  obtain ⟨⟨found, number⟩, solved, rfl⟩ := List.mem_map.mp inside
  exact ((continues.reduced.solved found number).mp solved).1 imaginary

/-- A solver that keeps its solved names from a state on has those of the state. -/
theorem Continues.refresh (continues : solver.Continues omitted earlier) :
    solver.Continues omitted solver.solved :=
  ⟨continues.reduced, continues.unmet, List.prefix_refl _⟩

end Solver

/-- An operator builds a node whose names are those of its operands. -/
theorem Expr.names_ofOperands {operator : Operator} {operands : List Expr} {expr : Expr}
    (ok : ofOperands operator operands = .ok expr) {name : String} (member : name ∈ expr.names) :
    ∃ operand ∈ operands, name ∈ operand.names := by
  unfold ofOperands at ok
  split at ok
  · cases ok
    simpa [names] using member
  · cases ok
    simpa [names] using member
  · cases ok
    simpa [names] using member
  · split at ok
    · cases ok
      simpa [names] using member
    · cases ok
  · cases ok

/-- The linear engine keeps what it has solved, and does not come to know a name that is not given to
it. -/
theorem linearEngine_maintains (settings : Settings) (omitted : String)
    (earlier : List (String × Number)) :
    (linearEngine settings).Maintains (· ≠ omitted) (Solver.Continues omitted earlier)
      (fun expr => omitted ∉ expr.names) where
  named name different := fun member => different (List.mem_singleton.mp member).symm
  anonymous := List.not_mem_nil
  number _ := List.not_mem_nil
  construct operator operands expr absent ok member := by
    obtain ⟨operand, given, inside⟩ := Expr.names_ofOperands ok member
    exact absent operand given inside
  solve equation absent := by
    intro before bindings after continues run
    obtain ⟨left, right, created, unknown, solution, accepts⟩ := Solver.solve_ok run
    exact ⟨continues.accept absent accepts, trivial⟩
  command name payload :=
    (Solver.command_keeps (fun solver verbose continues => continues.reporting verbose solver.precision)
      (fun solver precision _ continues => continues.reporting solver.verbose precision) name payload).yields

/-- The linear engine goes on printing with one of the usual precisions. -/
theorem linearEngine_maintains_isUsualPrecision (settings : Settings) :
    (linearEngine settings).Maintains (fun _ => True) (fun solver => Solver.IsUsualPrecision solver.precision)
      (fun _ => True) where
  named _ _ := trivial
  anonymous := trivial
  number _ := trivial
  construct _ _ _ _ _ := trivial
  solve equation _ := by
    intro before bindings after usual run
    have same : (Solver.solve settings equation before).2.state.precision = before.state.precision :=
      (Solver.solve_keeps_configuration settings equation before).2.1
    rw [show Solver.solve settings equation before = (.ok bindings, after) from run] at same
    have kept : Solver.IsUsualPrecision after.state.precision := by rwa [← same] at usual
    exact ⟨kept, trivial⟩
  command name payload :=
    (Solver.command_keeps (fun _ _ usual => usual) (fun _ _ usual _ => usual) name payload).yields

end EquationText
