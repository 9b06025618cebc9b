import EquationText.Token

/-! # The grammar of equations

The grammar in which expressions are documented, by what it derives (`EquationText.Derives`): which
tokens make up a word of a category, the tree of the word, and how deeply it is nested. The categories
are

* `expression`, a `term` after any number of terms with `+` or `-` behind each,
* `term`, a `signed` operand after any number of them with `*` or `/` behind each,
* `signed`, a `power` or a sign in front of a `signed` operand,
* `power`, a `postfixed` operand, with `^` and a `signed` exponent or without,
* `postfixed`, a `primary` operand with any number of bracketed pairs of expressions behind it,
* `primary`, a number, the word for an unnamed unknown, a name, a name with an expression in
  parentheses, or an expression in parentheses.

A derivation is as deep as the most `signed` categories that one of its paths from the root to a leaf
goes through.
-/

namespace EquationText

/-- The categories of the grammar. -/
inductive Category
  | expression
  | term
  | signed
  | power
  | postfixed
  | primary
deriving DecidableEq

/-- `Derives category levels word tree` means that the tokens of `word` have a derivation from the
category in which no path goes through more than `levels` signed operands, and that `tree` is its
tree. -/
inductive Derives : Category → Nat → List Token → Expr → Prop
  | ofTerm {levels word tree} (only : Derives .term levels word tree) :
    Derives .expression levels word tree
  | sum {levels left right a b line} (first : Derives .expression levels left a)
    (second : Derives .term levels right b) :
    Derives .expression levels (left ++ ⟨.operator '+', line⟩ :: right) (.binary .sum a b)
  | difference {levels left right a b line} (first : Derives .expression levels left a)
    (second : Derives .term levels right b) :
    Derives .expression levels (left ++ ⟨.operator '-', line⟩ :: right) (.binary .difference a b)
  | ofSigned {levels word tree} (only : Derives .signed levels word tree) :
    Derives .term levels word tree
  | product {levels left right a b line} (first : Derives .term levels left a)
    (second : Derives .signed levels right b) :
    Derives .term levels (left ++ ⟨.operator '*', line⟩ :: right) (.binary .product a b)
  | quotient {levels left right a b line} (first : Derives .term levels left a)
    (second : Derives .signed levels right b) :
    Derives .term levels (left ++ ⟨.operator '/', line⟩ :: right) (.binary .quotient a b)
  | ofPower {levels word tree} (only : Derives .power levels word tree) :
    Derives .signed (levels + 1) word tree
  | minus {levels word tree line} (operand : Derives .signed levels word tree) :
    Derives .signed (levels + 1) (⟨.operator '-', line⟩ :: word) (.negation tree)
  | plus {levels word tree line} (operand : Derives .signed levels word tree) :
    Derives .signed (levels + 1) (⟨.operator '+', line⟩ :: word) tree
  | ofPostfixed {levels word tree} (only : Derives .postfixed levels word tree) :
    Derives .power levels word tree
  | power {levels left right a b line} (base : Derives .postfixed levels left a)
    (exponent : Derives .signed levels right b) :
    Derives .power levels (left ++ ⟨.operator '^', line⟩ :: right) (.binary .exponentiation a b)
  | ofPrimary {levels word tree} (only : Derives .primary levels word tree) :
    Derives .postfixed levels word tree
  | mediation {levels scale first second t a b opening comma closing}
    (condition : Derives .postfixed levels scale t) (consequent : Derives .expression levels first a)
    (alternative : Derives .expression levels second b) :
    Derives .postfixed levels
      (scale ++ ⟨.mark '[', opening⟩ :: (first ++ ⟨.mark ',', comma⟩ :: (second ++
        [⟨.mark ']', closing⟩]))) (.mediation t a b)
  | number {levels value line} : Derives .primary levels [⟨.number value, line⟩] (.number value)
  | anonymous {levels word line} : Derives .primary levels [⟨.keyword word, line⟩] .anonymous
  | named {levels name line} : Derives .primary levels [⟨.ident name, line⟩] (.named name)
  | application {levels name line word tree opening closing}
    (argument : Derives .expression levels word tree) :
    Derives .primary levels
      (⟨.ident name, line⟩ :: ⟨.mark '(', opening⟩ :: (word ++ [⟨.mark ')', closing⟩]))
      (.application (.named name) tree)
  | parenthesised {levels word tree opening closing} (inner : Derives .expression levels word tree) :
    Derives .primary levels (⟨.mark '(', opening⟩ :: (word ++ [⟨.mark ')', closing⟩])) tree

/-- `DerivesEquation levels word tree` means that the tokens of `word` are two expressions with an
equals sign between them, nested to no more than `levels` levels, and that `tree` is the equation. -/
inductive DerivesEquation (levels : Nat) : List Token → Expr → Prop
  | intro {left right a b line} (first : Derives .expression levels left a)
    (second : Derives .expression levels right b) :
    DerivesEquation levels (left ++ ⟨.operator '=', line⟩ :: right) (.binary .equation a b)

namespace Expr

/-- Whether a tree is one of an expression: no equation is in it, operations of two operands are
written between them, and what is applied is a name. -/
def isExpression : Expr → Bool
  | named _ | anonymous | number _ => true
  | negation operand => operand.isExpression
  | application (named _) argument => argument.isExpression
  | application _ _ => false
  | mediation condition consequent alternative =>
    condition.isExpression && consequent.isExpression && alternative.isExpression
  | binary operator left right =>
    operator.isInfixed && operator ≠ .equation && left.isExpression && right.isExpression

/-- A tree and the trees below it. -/
def subtrees : Expr → List Expr
  | named name => [named name]
  | anonymous => [anonymous]
  | number value => [number value]
  | negation operand => negation operand :: operand.subtrees
  | application callee argument =>
    application callee argument :: (callee.subtrees ++ argument.subtrees)
  | mediation condition consequent alternative =>
    mediation condition consequent alternative ::
      (condition.subtrees ++ consequent.subtrees ++ alternative.subtrees)
  | binary operator left right => binary operator left right :: (left.subtrees ++ right.subtrees)

/-- No equation is in the tree of an expression. -/
theorem isEquation_of_mem_subtrees {tree part : Expr} (expression : tree.isExpression = true)
    (member : part ∈ tree.subtrees) : part.isEquation = false := by
  induction tree with
  | named name =>
      cases List.mem_singleton.mp member
      rfl
  | anonymous =>
      cases List.mem_singleton.mp member
      rfl
  | number value =>
      cases List.mem_singleton.mp member
      rfl
  | negation operand ih =>
      rcases List.mem_cons.mp member with rfl | below
      · rfl
      · exact ih expression below
  | application callee argument _ ih =>
      cases callee with
      | named name =>
          rcases List.mem_cons.mp member with rfl | below
          · rfl
          · rcases List.mem_append.mp below with inside | inside
            · cases List.mem_singleton.mp inside
              rfl
            · exact ih expression inside
      | _ => cases expression
  | mediation condition consequent alternative one two three =>
      simp only [isExpression, Bool.and_eq_true] at expression
      rcases List.mem_cons.mp member with rfl | below
      · rfl
      · simp only [List.mem_append] at below
        rcases below with (inside | inside) | inside
        · exact one expression.1.1 inside
        · exact two expression.1.2 inside
        · exact three expression.2 inside
  | binary operator left right one two =>
      simp only [isExpression, Bool.and_eq_true] at expression
      rcases List.mem_cons.mp member with rfl | below
      · have different := of_decide_eq_true expression.1.1.2
        cases operator <;> first | rfl | exact absurd rfl different
      · rcases List.mem_append.mp below with inside | inside
        · exact one expression.1.2 inside
        · exact two expression.2 inside

end Expr

namespace Derives

variable {category : Category} {levels more : Nat} {word : List Token} {tree : Expr}

/-- A derivation may be nested less deeply than allowed. -/
theorem mono (derives : Derives category levels word tree) (fewer : levels ≤ more) :
    Derives category more word tree := by
  induction derives generalizing more with
  | ofTerm _ ih => exact .ofTerm (ih fewer)
  | sum _ _ first second => exact .sum (first fewer) (second fewer)
  | difference _ _ first second => exact .difference (first fewer) (second fewer)
  | ofSigned _ ih => exact .ofSigned (ih fewer)
  | product _ _ first second => exact .product (first fewer) (second fewer)
  | quotient _ _ first second => exact .quotient (first fewer) (second fewer)
  | ofPower _ ih =>
      obtain ⟨inner, rfl⟩ := Nat.exists_eq_add_of_lt fewer
      exact .ofPower (ih (Nat.le_add_right ..))
  | minus _ ih =>
      obtain ⟨inner, rfl⟩ := Nat.exists_eq_add_of_lt fewer
      exact .minus (ih (Nat.le_add_right ..))
  | plus _ ih =>
      obtain ⟨inner, rfl⟩ := Nat.exists_eq_add_of_lt fewer
      exact .plus (ih (Nat.le_add_right ..))
  | ofPostfixed _ ih => exact .ofPostfixed (ih fewer)
  | power _ _ base exponent => exact .power (base fewer) (exponent fewer)
  | ofPrimary _ ih => exact .ofPrimary (ih fewer)
  | mediation _ _ _ condition consequent alternative =>
      exact .mediation (condition fewer) (consequent fewer) (alternative fewer)
  | number => exact .number
  | anonymous => exact .anonymous
  | named => exact .named
  | application _ ih => exact .application (ih fewer)
  | parenthesised _ ih => exact .parenthesised (ih fewer)

theorem isExpression (derives : Derives category levels word tree) :
    tree.isExpression = true := by
  induction derives with
  | ofTerm _ ih | ofSigned _ ih | ofPower _ ih | minus _ ih | plus _ ih | ofPostfixed _ ih
  | ofPrimary _ ih | application _ ih | parenthesised _ ih => exact ih
  | sum _ _ first second | difference _ _ first second | product _ _ first second
  | quotient _ _ first second | power _ _ first second =>
      simp [Expr.isExpression, first, second, Operator.isInfixed]
  | mediation _ _ _ condition consequent alternative =>
      simp [Expr.isExpression, condition, consequent, alternative]
  | number | anonymous | named => rfl

theorem ne_nil (derives : Derives category levels word tree) : word ≠ [] := by
  induction derives with
  | ofTerm _ ih | ofSigned _ ih | ofPower _ ih | ofPostfixed _ ih | ofPrimary _ ih => exact ih
  | _ => simp

end Derives

theorem DerivesEquation.mono {levels more : Nat} {word : List Token} {tree : Expr}
    (derives : DerivesEquation levels word tree) (fewer : levels ≤ more) :
    DerivesEquation more word tree := by
  obtain ⟨first, second⟩ := derives
  exact .intro (first.mono fewer) (second.mono fewer)

end EquationText
