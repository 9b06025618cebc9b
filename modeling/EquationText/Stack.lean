import EquationText.Fault

/-! # Operand stacks

The ordered scratch space for the partial results of one statement. Only depth and order matter;
the values are opaque.
-/

namespace EquationText

/-- A stack of operands, the topmost first. -/
structure OperandStack (α : Type) where
  topFirst : List α
deriving DecidableEq, Inhabited

namespace OperandStack

variable {α : Type}

def empty : OperandStack α := ⟨[]⟩

/-- The values in the order they were pushed. -/
def toList (stack : OperandStack α) : List α := stack.topFirst.reverse

/-- The number of values. -/
def depth (stack : OperandStack α) : Nat := stack.topFirst.length

def push (value : α) (stack : OperandStack α) : OperandStack α := ⟨value :: stack.topFirst⟩

/-- Places a value below the topmost `depth` values. -/
def insert (value : α) (depth : Int) (stack : OperandStack α) : Except Cause (OperandStack α) :=
  if depth < 0 || (stack.depth : Int) < depth then
    .error (.operands (.insertion depth stack.depth))
  else
    .ok ⟨stack.topFirst.take depth.toNat ++ value :: stack.topFirst.drop depth.toNat⟩

/-- Removes the topmost `count` values; a negative count leaves as many at the bottom. The values
removed are given in the order they were pushed. -/
def pop (count : Int) (stack : OperandStack α) : Except Cause (List α × OperandStack α) :=
  if (stack.depth : Int) < count then .error (.operands (.removal count stack.depth))
  else
    let removed := if 0 ≤ count then count.toNat else stack.depth - (-count).toNat
    .ok ((stack.topFirst.take removed).reverse, ⟨stack.topFirst.drop removed⟩)

/-- The topmost value. -/
def peek (stack : OperandStack α) : Except Cause α :=
  match stack.topFirst with
  | [] => .error (.operands .empty)
  | top :: _ => .ok top

/-- The text that shows a stack. -/
def toText (stack : OperandStack α) : String := s!"OperandStack(depth={stack.depth})"

end OperandStack

end EquationText
