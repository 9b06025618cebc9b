import EquationText.Engine
import EquationText.Form.Describe
import EquationText.Settings

/-! # Solvers

The state of the engine that solves linear equations: the unknowns that have been eliminated, each
with its form in the others, and the names among them whose form is a constant.
-/

namespace EquationText

/-- Sets the value of a key; a key that is present keeps its place, a new one comes last. -/
def place {α β : Type} [DecidableEq α] (key : α) (value : β) : List (α × β) → List (α × β)
  | [] => [(key, value)]
  | entry :: rest =>
    if entry.1 = key then (key, value) :: rest else entry :: place key value rest

/-- The value of a key. -/
def valueOf? {α β : Type} [DecidableEq α] (key : α) : List (α × β) → Option β
  | [] => none
  | entry :: rest => if entry.1 = key then some entry.2 else valueOf? key rest

/-- The state of the linear engine. -/
structure Solver where
  /-- Whether equations and forms are reported. -/
  verbose : Bool
  /-- The number of significant digits of printed values. -/
  precision : Int
  /-- The number of values that the operand stack may hold. -/
  maxDepth : Int
  /-- A closed engine takes no more operands. -/
  closed : Bool
  /-- The eliminated unknowns with their forms, in the order of elimination. -/
  known : List (Unknown × Form)
  /-- The named unknowns whose form is a constant, in the order in which they became so. -/
  solved : List (String × Number)
  /-- The number of unnamed unknowns so far. -/
  created : Nat
deriving DecidableEq

namespace Solver

/-- The name that stands for the imaginary unit. -/
def imaginaryName : String := "i"

/-- A solver that knows nothing but the imaginary unit. -/
def start (settings : Settings) (verbose : Bool) (maxDepth precision : Option Int) : Solver where
  verbose
  precision := precision.getD settings.precision
  maxDepth := maxDepth.getD settings.maxStackDepth
  closed := false
  known := [(.named imaginaryName, .ofNumber .imaginaryUnit)]
  solved := []
  created := 0

/-- How the solver prints numbers. -/
def style (settings : Settings) (solver : Solver) : Style := ⟨settings.cutoff, solver.precision⟩

/-- The form of an unknown in the unknowns that are not eliminated. -/
def formOf (solver : Solver) (unknown : Unknown) : Form :=
  (valueOf? unknown solver.known).getD (.ofUnknown unknown)

/-- Whether a stack may hold this many values. -/
def hasRoom (solver : Solver) (wanted : Int) : Bool := !solver.closed && wanted ≤ solver.maxDepth

/-- The suffixes that select a part of a complex value. -/
def realSuffix : String := "#r"

def imaginarySuffix : String := "#i"

/-- What a reference asks for: the name, and the part of its value if it selects one. -/
inductive Selection
  | whole (name : String)
  | real (name : String)
  | imaginary (name : String)

/-- Reads a reference. -/
def select (reference : String) : Selection :=
  match reference.toList.reverse with
  | 'r' :: '#' :: rest => .real (String.ofList rest.reverse)
  | 'i' :: '#' :: rest => .imaginary (String.ofList rest.reverse)
  | _ => .whole reference

/-- The text of a solved name, or of a part of its value; nothing for a name that is not solved. -/
def translate (settings : Settings) (solver : Solver) (reference : String) :
    Except Cause (Option String) :=
  let style := solver.style settings
  let written (name : String) (text : Number → Except Cause String) :
      Except Cause (Option String) :=
    match valueOf? name solver.solved with
    | none => .ok none
    | some value => (text value).map some
  match select reference with
  | .whole name => written name style.number
  | .real name => written name fun value => style.double value.re.toDouble
  | .imaginary name => written name fun value => style.double value.im.toDouble

/-- The texts of some solved names. -/
def translateAll (settings : Settings) (solver : Solver) :
    List String → Except Cause (List Binding)
  | [] => .ok []
  | name :: rest => do
    let text ← solver.translate settings name
    let others ← solver.translateAll settings rest
    return (name, text) :: others

/-- The solved names with their texts, in the order in which they were solved. -/
def bindings (settings : Settings) (solver : Solver) : Except Cause (List Binding) :=
  solver.translateAll settings (solver.solved.map (·.1))

/-- The text of the form of an unknown. -/
def describe (settings : Settings) (solver : Solver) (unknown : Unknown) : Except Cause String :=
  (solver.style settings).form settings.anonymousWord (solver.formOf unknown)

end Solver

end EquationText
