import EquationText.Expr.Fold

/-! # The text of an expression

Expressions are written with every operation of two operands in parentheses, except the equation at
the root.
-/

namespace EquationText

namespace Double

/-- The text of a number inside an expression: six significant digits. -/
def toBrief (d : Double) : String := d.toGeneral 6

end Double

namespace Expr

/-- The text of a node from the texts of its operands. -/
def showNode (node : Expr) (parts : List String) : String :=
  let part (index : Nat) : String := parts.getD index ""
  match node with
  | .named name => name
  | .anonymous => "whatever"
  | .number value => value.toBrief
  | .negation _ => s!"-{part 0}"
  | .application _ _ => s!"{part 0}({part 1})"
  | .mediation _ _ _ => s!"{part 0}[{part 1}, {part 2}]"
  | .binary .equation _ _ => s!"{part 0} = {part 1}"
  | .binary operator _ _ => s!"({part 0} {operator.sign} {part 1})"

/-- The text of an expression. -/
def toText (expr : Expr) : String := Id.run (expr.fold fun node parts => pure (showNode node parts))

end Expr

end EquationText
