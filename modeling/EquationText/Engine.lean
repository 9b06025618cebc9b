import EquationText.Action
import EquationText.Numeric.Double

/-! # Engines

What the statements of a document need from the engine that solves them: operand values, room for
them, the solution of an equation, commands, and the text of solved names.
-/

namespace EquationText

/-- A solved name with its text; a name that reads as the part of another one may have none. -/
abbrev Binding : Type := String × Option String

/-- An engine with a state of type `σ` and operand values of type `ν`. -/
structure Engine (σ ν : Type) where
  /-- Whether a stack may hold this many values. -/
  hasRoom : σ → Int → Bool
  /-- The value of a named unknown. -/
  named : String → ν
  /-- The value of a new unnamed unknown. -/
  anonymous : ν
  /-- The value of a number. -/
  number : Double → ν
  /-- Combines operands, in the order they were pushed, into a value. -/
  construct : Operator → List ν → Except Cause ν
  /-- Solves an equation and gives the names it determined with their texts. -/
  solve : ν → Action σ (List Binding)
  /-- Carries out a command. -/
  command : String → String → Action σ Unit
  /-- The text of a solved name. -/
  translate : σ → String → Except Cause (Option String)

end EquationText
