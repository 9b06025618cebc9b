import EquationText.Proofs.Grammar.Statement
import EquationText.Proofs.Token.Spelling

/-! # Writing expressions

A text writes a tree if it spells a word of some category of the grammar that has the tree
(`EquationText.Writes`). There is one rule for each way in which texts are put together, and a text that writes
an expression between the marks of a block is read as its tree (`EquationText.Writes.isReadAs`).
-/

namespace EquationText

/-- Whether a text spells a word of a category with a tree. -/
def Writes (settings : Settings) (category : Category) (levels : Nat) (cs : List Char) (tree : Expr) : Prop :=
  ∃ lexemes, Spells settings cs lexemes ∧ ∀ line, Derives category levels (lexemes.map (Token.mk · line)) tree

namespace Writes

variable {settings : Settings} {category : Category} {levels more : Nat} {cs left right word figures : List Char}
  {tree a b t : Expr} {sign : Char}

theorem mono (writes : Writes settings category levels cs tree) (fewer : levels ≤ more) :
    Writes settings category more cs tree := by
  obtain ⟨lexemes, spells, derives⟩ := writes
  exact ⟨lexemes, spells, fun line => (derives line).mono fewer⟩

/-! ## From one category to the next -/

theorem postfixed (writes : Writes settings .primary levels cs tree) :
    Writes settings .postfixed levels cs tree := by
  obtain ⟨lexemes, spells, derives⟩ := writes
  exact ⟨lexemes, spells, fun line => .ofPrimary (derives line)⟩

theorem power (writes : Writes settings .postfixed levels cs tree) : Writes settings .power levels cs tree := by
  obtain ⟨lexemes, spells, derives⟩ := writes
  exact ⟨lexemes, spells, fun line => .ofPostfixed (derives line)⟩

theorem signed (writes : Writes settings .power levels cs tree) :
    Writes settings .signed (levels + 1) cs tree := by
  obtain ⟨lexemes, spells, derives⟩ := writes
  exact ⟨lexemes, spells, fun line => .ofPower (derives line)⟩

theorem term (writes : Writes settings .signed levels cs tree) : Writes settings .term levels cs tree := by
  obtain ⟨lexemes, spells, derives⟩ := writes
  exact ⟨lexemes, spells, fun line => .ofSigned (derives line)⟩

theorem expression (writes : Writes settings .term levels cs tree) :
    Writes settings .expression levels cs tree := by
  obtain ⟨lexemes, spells, derives⟩ := writes
  exact ⟨lexemes, spells, fun line => .ofTerm (derives line)⟩

/-! ## Operands -/

section Usual

variable (usual : settings.HasUsualMarks)
include usual

theorem named (isName : isName word = true) (other : String.ofList word ≠ settings.anonymousWord) :
    Writes settings .primary levels word (.named (String.ofList word)) := by
  have spells := Spells.name usual isName
  rw [if_neg other] at spells
  exact ⟨_, spells, fun _ => .named⟩

theorem anonymous (isName : isName word = true) (same : String.ofList word = settings.anonymousWord) :
    Writes settings .primary levels word .anonymous := by
  have spells := Spells.name usual isName
  rw [if_pos same] at spells
  exact ⟨_, spells, fun _ => .anonymous⟩

theorem number (taken : takeNumeral figures = some (figures, [])) :
    Writes settings .primary levels figures (.number (numeralValue figures)) :=
  ⟨_, .numeral usual taken, fun _ => .number⟩

theorem parenthesised (inner : Writes settings .expression levels cs tree) :
    Writes settings .primary levels ('(' :: (cs ++ [')'])) tree := by
  obtain ⟨lexemes, spells, derives⟩ := inner
  refine ⟨_, .mark usual rfl (spells.append (.mark usual rfl .nil) rfl), fun line => ?_⟩
  rw [List.map_cons, List.map_append]
  exact .parenthesised (derives line)

theorem application (isName : isName word = true) (other : String.ofList word ≠ settings.anonymousWord)
    (argument : Writes settings .expression levels cs tree) :
    Writes settings .primary levels (word ++ '(' :: (cs ++ [')']))
      (.application (.named (String.ofList word)) tree) := by
  obtain ⟨lexemes, spells, derives⟩ := argument
  have callee := Spells.name usual isName
  rw [if_neg other] at callee
  have called : Spells settings ('(' :: (cs ++ [')'])) (.mark '(' :: (lexemes ++ [.mark ')'])) :=
    .mark usual rfl (spells.append (.mark usual rfl .nil) rfl)
  refine ⟨_, callee.append called rfl, fun line => ?_⟩
  simp only [List.map_append, List.map_cons, List.map_nil]
  exact .application (derives line)

/-- A mediation is written with its scale in front and its sides in brackets. -/
theorem mediation (scale : Writes settings .postfixed levels cs t)
    (consequent : Writes settings .expression levels left a)
    (alternative : Writes settings .expression levels right b) :
    Writes settings .postfixed levels (cs ++ '[' :: (left ++ ',' :: ' ' :: (right ++ [']'])))
      (.mediation t a b) := by
  obtain ⟨scales, scaleSpells, scaleDerives⟩ := scale
  obtain ⟨firsts, firstSpells, firstDerives⟩ := consequent
  obtain ⟨seconds, secondSpells, secondDerives⟩ := alternative
  have closed : Spells settings (right ++ [']']) (seconds ++ [.mark ']']) :=
    secondSpells.append (.mark usual rfl .nil) rfl
  have pair : Spells settings (left ++ ',' :: ' ' :: (right ++ [']']))
      (firsts ++ .mark ',' :: (seconds ++ [.mark ']'])) :=
    firstSpells.append (.mark usual rfl (.blank usual closed)) rfl
  have whole : Spells settings (cs ++ '[' :: (left ++ ',' :: ' ' :: (right ++ [']'])))
      (scales ++ .mark '[' :: (firsts ++ .mark ',' :: (seconds ++ [.mark ']']))) :=
    scaleSpells.append (.mark usual rfl pair) rfl
  refine ⟨_, whole, fun line => ?_⟩
  simp only [List.map_append, List.map_cons, List.map_nil]
  exact .mediation (scaleDerives line) (firstDerives line) (secondDerives line)

/-! ## Operations -/

theorem minus (operand : Writes settings .signed levels cs tree) :
    Writes settings .signed (levels + 1) ('-' :: cs) (.negation tree) := by
  obtain ⟨lexemes, spells, derives⟩ := operand
  exact ⟨_, .operator usual rfl spells, fun line => .minus (derives line)⟩

/-- An operator with blanks around it joins its operands. -/
theorem infixed {first second : Category} (isSign : isOperatorSign sign = true)
    (writesLeft : Writes settings first levels left a) (writesRight : Writes settings second levels right b)
    (derives : ∀ {line wordLeft wordRight}, Derives first levels wordLeft a → Derives second levels wordRight b →
      Derives category levels (wordLeft ++ ⟨.operator sign, line⟩ :: wordRight) tree) :
    Writes settings category levels (left ++ ' ' :: sign :: ' ' :: right) tree := by
  obtain ⟨lefts, leftSpells, leftDerives⟩ := writesLeft
  obtain ⟨rights, rightSpells, rightDerives⟩ := writesRight
  have joined : Spells settings (' ' :: sign :: ' ' :: right) (.operator sign :: rights) :=
    .blank usual (.operator usual isSign (.blank usual rightSpells))
  refine ⟨_, leftSpells.append joined rfl, fun line => ?_⟩
  rw [List.map_append]
  exact derives (leftDerives line) (rightDerives line)

/-- A product may be written without blanks. -/
theorem times (writesLeft : Writes settings .term levels left a)
    (writesRight : Writes settings .signed levels right b) :
    Writes settings .term levels (left ++ '*' :: right) (.binary .product a b) := by
  obtain ⟨lefts, leftSpells, leftDerives⟩ := writesLeft
  obtain ⟨rights, rightSpells, rightDerives⟩ := writesRight
  have joined : Spells settings ('*' :: right) (.operator '*' :: rights) := .operator usual rfl rightSpells
  refine ⟨_, leftSpells.append joined rfl, fun line => ?_⟩
  rw [List.map_append]
  exact .product (leftDerives line) (rightDerives line)

end Usual

end Writes

/-- Whether a text is an expression with a tree: between the marks of a block it is scanned to a word that has the
tree, and reading the word with as many levels as it is nested, or more, gives the program of the tree. -/
def IsReadAs (settings : Settings) (levels : Nat) (text : String) (tree : Expr) : Prop :=
  ∃ word, scan settings (settings.enclosed text) = ⟨⟨.blockOpen, 1⟩ :: (word ++ [⟨.blockClose, 1⟩]), .ok 1⟩ ∧
    Derives .expression levels word tree ∧
    ∀ (context : Context) (more : Nat), levels ≤ more →
      (context.production more .expression).read (word ++ [⟨.blockClose, 1⟩]) =
        ⟨tree.program, .ok [⟨.blockClose, 1⟩]⟩

theorem Writes.isReadAs {settings : Settings} {levels : Nat} {text : String} {tree : Expr}
    (usual : settings.HasUsualMarks) (writes : Writes settings .expression levels text.toList tree) :
    IsReadAs settings levels text tree := by
  obtain ⟨lexemes, spells, derives⟩ := writes
  refine ⟨lexemes.map (Token.mk · 1), spells.scan_enclosed usual, derives 1, fun context more enough => ?_⟩
  have ends : Category.expression.EndsBefore (lexemes.map (Token.mk · 1)) [⟨.blockClose, 1⟩] :=
    Category.endsBefore_cons (by simp [Category.continuations]) (by simp)
  exact (((derives 1).mono enough).takes context).read (List.cons_ne_nil _ _) ends

section Unique

variable {settings : Settings} {levels fewer : Nat} {text : String} {tree other : Expr} {word first second : List Token}

/-- The word of a text between the marks of a block is determined by the text. -/
theorem block_eq_of_scan
    (scanned : scan settings (settings.enclosed text) = ⟨⟨.blockOpen, 1⟩ :: (first ++ [⟨.blockClose, 1⟩]), .ok 1⟩)
    (again : scan settings (settings.enclosed text) = ⟨⟨.blockOpen, 1⟩ :: (second ++ [⟨.blockClose, 1⟩]), .ok 1⟩) :
    second = first := by
  have tokens := congrArg Scan.tokens (again.symm.trans scanned)
  exact List.append_cancel_right (List.cons.inj tokens).2

/-- The tokens of an expression are read with the program of its tree where a block ends. -/
theorem Derives.read_expression (context : Context) (derives : Derives .expression levels word tree) :
    (context.production levels .expression).read (word ++ [⟨.blockClose, 0⟩]) =
      ⟨tree.program, .ok [⟨.blockClose, 0⟩]⟩ :=
  (derives.takes context).read (List.cons_ne_nil _ _)
    (Category.endsBefore_cons (by simp [Category.continuations]) (by simp))

/-- The tokens of an expression have one tree. -/
theorem Derives.unique_of_expression (derives : Derives .expression levels word tree)
    (derivesOther : Derives .expression fewer word other) : other = tree := by
  let context : Context := ⟨{}, .ok 0⟩
  have read := (derives.mono (Nat.le_max_left levels fewer)).read_expression context
  have readOther := (derivesOther.mono (Nat.le_max_right levels fewer)).read_expression context
  have same : other.program = tree.program := congrArg Reading.program (readOther.symm.trans read)
  exact Expr.program_injective (Expr.isWellFormed_of_isExpression derivesOther.isExpression)
    (Expr.isWellFormed_of_isExpression derives.isExpression) same

/-- No tokens are both an expression and an equation. -/
theorem DerivesEquation.not_derives (derives : DerivesEquation levels word tree) :
    ¬ Derives .expression fewer word other := by
  intro expression
  let context : Context := ⟨{}, .ok 0⟩
  have asExpression := (expression.mono (Nat.le_max_right levels fewer)).read_expression context
  have asEquation := (derives.mono (Nat.le_max_left levels fewer)).read context
    (List.cons_ne_nil ⟨.blockClose, 0⟩ []) (.of_endsStatement rfl)
  rw [Context.equation, Reading.bind_of_eq asExpression] at asEquation
  cases congrArg Reading.outcome asEquation

/-- A text is read as one expression only. -/
theorem IsReadAs.unique (read : IsReadAs settings levels text tree)
    (readOther : IsReadAs settings fewer text other) : other = tree := by
  obtain ⟨word, scanned, derives, _⟩ := read
  obtain ⟨same, again, derivesOther, _⟩ := readOther
  cases block_eq_of_scan scanned again
  exact derives.unique_of_expression derivesOther

end Unique

end EquationText
