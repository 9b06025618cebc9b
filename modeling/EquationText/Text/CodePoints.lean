/-! # Sets of code points

A set of characters is a list of inclusive ranges of code points.
-/

namespace EquationText

/-- Inclusive ranges of code points. -/
abbrev CodePoints := List (Nat × Nat)

/-- Whether some range holds the character. -/
def CodePoints.holds (ranges : CodePoints) (c : Char) : Bool :=
  ranges.any fun range => range.1 ≤ c.toNat && c.toNat ≤ range.2

/-- Whether the character is one of the first 128. -/
def isAscii (c : Char) : Bool := c.toNat < 128

end EquationText
