import EquationText.Proofs.Document.Composition
import EquationText.Proofs.Expr.Reread
import EquationText.Proofs.Grammar.Writing
import EquationText.Proofs.Session.Calls
import EquationText.Proofs.Token.Layout

/-! # Reading the text of a tree

The text of a tree that a document is read as is an expression or an equation again, provided that its numbers
are read back: it is read as the tree with the signs of bases and scales in front of the whole operation
(`EquationText.shown_tree_reads`). So it is read as the same tree exactly if there are no such signs.
-/

namespace EquationText

/-- Whether a number is read back from its text in expressions. -/
def Double.IsReadBack (value : Double) : Prop :=
  takeNumeral value.toBrief.toList = some (value.toBrief.toList, []) ∧ numeralValue value.toBrief.toList = value

namespace Expr

/-- Whether the leaves of a tree are read back from their texts. -/
def IsLegible (settings : Settings) : Expr → Prop
  | named name => isName name.toList = true ∧ name ≠ settings.anonymousWord
  | anonymous => True
  | number value => value.IsReadBack
  | negation operand => operand.IsLegible settings
  | application callee argument => callee.IsLegible settings ∧ argument.IsLegible settings
  | mediation condition consequent alternative =>
    condition.IsLegible settings ∧ consequent.IsLegible settings ∧ alternative.IsLegible settings
  | binary _ left right => left.IsLegible settings ∧ right.IsLegible settings

end Expr

/-- Whether a text is some signs in front of a text that writes an operand. -/
def Shows (settings : Settings) (levels : Nat) (cs : List Char) (signs : Nat) (operand : Expr) : Prop :=
  ∃ core inner, cs = List.replicate signs '-' ++ core ∧ inner + signs + 1 ≤ levels ∧
    Writes settings .postfixed inner core operand

namespace Shows

variable {settings : Settings} {levels more further signs moreSigns furtherSigns : Nat}
  {cs left right : List Char} {tree a b t : Expr}

theorem of_primary (writes : Writes settings .primary levels cs tree) : Shows settings (levels + 1) cs 0 tree :=
  ⟨cs, levels, rfl, Nat.le.refl, writes.postfixed⟩

theorem mono (shows : Shows settings levels cs signs tree) (fewer : levels ≤ more) :
    Shows settings more cs signs tree := by
  obtain ⟨core, inner, text, nested, writes⟩ := shows
  exact ⟨core, inner, text, Nat.le_trans nested fewer, writes⟩

/-- A sign may come before. -/
theorem negation (shows : Shows settings levels cs signs tree) :
    Shows settings (levels + 1) ('-' :: cs) (signs + 1) tree := by
  obtain ⟨core, inner, rfl, nested, writes⟩ := shows
  exact ⟨core, inner, rfl, Nat.succ_le_succ nested, writes⟩

variable (usual : settings.HasUsualMarks)
include usual

theorem minuses (writes : Writes settings .signed levels cs tree) (signs : Nat) :
    Writes settings .signed (levels + signs) (List.replicate signs '-' ++ cs) (tree.signed signs) := by
  induction signs with
  | zero => exact writes
  | succ signs ih => exact ih.minus usual

/-- A text that shows an operand behind some signs writes the operand with the signs. -/
theorem writes (shows : Shows settings levels cs signs tree) :
    Writes settings .signed levels cs (tree.signed signs) := by
  obtain ⟨core, inner, rfl, nested, writes⟩ := shows
  exact (minuses usual writes.power.signed signs).mono (by omega)

theorem expression (shows : Shows settings levels cs signs tree) :
    Writes settings .expression levels cs (tree.signed signs) :=
  (shows.writes usual).term.expression

/-- The signs of a scale stand in front of the mediation. -/
theorem mediation (scale : Shows settings levels cs signs t) (consequent : Shows settings more left moreSigns a)
    (alternative : Shows settings further right furtherSigns b) :
    Shows settings (levels + more + further + 1) (cs ++ '[' :: (left ++ ',' :: ' ' :: (right ++ [']']))) signs
      (.mediation t (a.signed moreSigns) (b.signed furtherSigns)) := by
  obtain ⟨core, inner, rfl, nested, writes⟩ := scale
  have whole := (writes.mono (Nat.le_add_right inner (more + further))).mediation usual
    ((consequent.expression usual).mono (show more ≤ inner + (more + further) by omega))
    ((alternative.expression usual).mono (show further ≤ inner + (more + further) by omega))
  exact ⟨_, _, List.append_assoc .., by omega, whole⟩

/-- The signs of a base stand in front of the power. -/
theorem power (base : Shows settings levels left signs a) (exponent : Shows settings more right moreSigns b) :
    Writes settings .expression (levels + more) (left ++ ' ' :: '^' :: ' ' :: right)
      ((Expr.binary .exponentiation a (b.signed moreSigns)).signed signs) := by
  obtain ⟨core, inner, rfl, nested, writes⟩ := base
  have whole := (writes.mono (Nat.le_add_right inner more)).infixed usual rfl
    ((exponent.writes usual).mono (Nat.le_add_left more inner)) Derives.power
  rw [List.append_assoc]
  exact ((minuses usual whole.signed signs).mono (by omega)).term.expression

/-- An operation in parentheses has no sign in front. -/
theorem parenthesised (inner : Writes settings .expression levels cs tree) :
    Shows settings (levels + 1) ('(' :: (cs ++ [')'])) 0 tree :=
  .of_primary (inner.parenthesised usual)

end Shows

namespace Expr

variable {settings : Settings}

/-- The text of an operation of two operands. -/
theorem toList_toText_binary {operator : Operator} (sign : Char) (other : operator ≠ .equation)
    (written : operator.sign = String.singleton sign) (left right : Expr) :
    (binary operator left right).toText.toList =
      '(' :: (left.toText.toList ++ ' ' :: sign :: ' ' :: right.toText.toList ++ [')']) := by
  rw [toText_binary other, written]
  simp [String.toList_append]

variable (usual : settings.HasUsualMarks) (word : settings.anonymousWord = "whatever")
include usual word

/-- The text of an expression shows what it is read as. -/
theorem shows_toText {tree : Expr} (expression : tree.isExpression = true) (legible : tree.IsLegible settings) :
    Shows settings tree.nodes tree.toText.toList tree.frontSigns tree.unsigned := by
  induction tree with
  | named name =>
      have writes : Writes settings .primary 0 name.toList (.named (String.ofList name.toList)) :=
        .named usual legible.1 (by rw [String.ofList_toList]; exact legible.2)
      rw [String.ofList_toList] at writes
      rw [toText_named]
      exact .of_primary writes
  | anonymous =>
      rw [toText_anonymous]
      exact .of_primary (.anonymous usual rfl word.symm)
  | number value =>
      obtain ⟨taken, same⟩ := legible
      have writes : Writes settings .primary 0 value.toBrief.toList (.number (numeralValue value.toBrief.toList)) :=
        .number usual taken
      rw [same] at writes
      rw [toText_number]
      exact .of_primary writes
  | negation operand ih =>
      rw [toText_negation, String.toList_append]
      exact (ih expression legible).negation
  | application callee argument _ ih =>
      cases callee with
      | named name =>
          obtain ⟨⟨isName, other⟩, argumentLegible⟩ := legible
          have writes := Writes.application usual isName (by rwa [String.ofList_toList])
            ((ih expression argumentLegible).expression usual)
          rw [String.ofList_toList] at writes
          have text : (application (named name) argument).toText.toList =
              name.toList ++ '(' :: (argument.toText.toList ++ [')']) := by
            simp [String.toList_append]
          rw [text]
          exact (Shows.of_primary writes).mono (by simp only [nodes]; omega)
      | _ => cases expression
  | mediation condition consequent alternative scale first second =>
      simp only [isExpression, Bool.and_eq_true] at expression
      obtain ⟨scaleLegible, firstLegible, secondLegible⟩ := legible
      have text : (mediation condition consequent alternative).toText.toList = condition.toText.toList ++
          '[' :: (consequent.toText.toList ++ ',' :: ' ' :: (alternative.toText.toList ++ [']'])) := by
        simp [String.toList_append]
      rw [text]
      exact (scale expression.1.1 scaleLegible).mediation usual (first expression.1.2 firstLegible)
        (second expression.2 secondLegible)
  | binary operator left right first second =>
      simp only [isExpression, Bool.and_eq_true] at expression
      obtain ⟨⟨⟨infixed, other⟩, leftExpression⟩, rightExpression⟩ := expression
      have showsLeft := first leftExpression legible.1
      have showsRight := second rightExpression legible.2
      have writesLeft := (showsLeft.writes usual).mono (Nat.le_add_right left.nodes right.nodes)
      have writesRight := (showsRight.writes usual).mono (Nat.le_add_left right.nodes left.nodes)
      cases operator with
      | sum =>
          rw [toList_toText_binary '+' (by decide) rfl]
          exact .parenthesised usual
            (writesLeft.term.expression.infixed usual rfl writesRight.term Derives.sum)
      | difference =>
          rw [toList_toText_binary '-' (by decide) rfl]
          exact .parenthesised usual
            (writesLeft.term.expression.infixed usual rfl writesRight.term Derives.difference)
      | product =>
          rw [toList_toText_binary '*' (by decide) rfl]
          exact .parenthesised usual (writesLeft.term.infixed usual rfl writesRight Derives.product).expression
      | quotient =>
          rw [toList_toText_binary '/' (by decide) rfl]
          exact .parenthesised usual (writesLeft.term.infixed usual rfl writesRight Derives.quotient).expression
      | exponentiation =>
          rw [toList_toText_binary '^' (by decide) rfl]
          exact .parenthesised usual (showsLeft.power usual showsRight)
      | equation => cases other
      | negation | application | mediation => cases infixed

end Expr

/-! ## Texts of equations -/

/-- Whether a text is an equation with a tree: between the marks of a block it is scanned to a word that has the
tree, and reading it as a statement, with as many levels as it is nested or more, gives the program of the tree. -/
def IsReadAsEquation (settings : Settings) (levels : Nat) (text : String) (tree : Expr) : Prop :=
  ∃ word, scan settings (settings.enclosed text) = ⟨⟨.blockOpen, 1⟩ :: (word ++ [⟨.blockClose, 1⟩]), .ok 1⟩ ∧
    DerivesEquation levels word tree ∧
    ∀ (context : Context) (more : Nat), levels ≤ more →
      context.statement (context.production more .expression) (word ++ [⟨.blockClose, 1⟩]) =
        (.equation 1 tree.program, some [⟨.blockClose, 1⟩])

section Equations

variable {settings : Settings} {levels : Nat} {left right : List Char} {text : String} {a b tree : Expr}

/-- An equals sign with blanks around it joins two expressions to an equation. -/
theorem Writes.isReadAsEquation (usual : settings.HasUsualMarks) (first : Writes settings .expression levels left a)
    (second : Writes settings .expression levels right b)
    (whole : text.toList = left ++ ' ' :: '=' :: ' ' :: right) :
    IsReadAsEquation settings levels text (.binary .equation a b) := by
  obtain ⟨lefts, leftSpells, leftDerives⟩ := first
  obtain ⟨rights, rightSpells, rightDerives⟩ := second
  have joined : Spells settings (' ' :: '=' :: ' ' :: right) (.operator '=' :: rights) :=
    .blank usual (.operator usual rfl (.blank usual rightSpells))
  have spells : Spells settings text.toList (lefts ++ .operator '=' :: rights) := by
    rw [whole]
    exact leftSpells.append joined rfl
  have derives : DerivesEquation levels ((lefts ++ .operator '=' :: rights).map (Token.mk · 1))
      (.binary .equation a b) := by
    rw [List.map_append]
    exact .intro (leftDerives 1) (rightDerives 1)
  refine ⟨_, spells.scan_enclosed usual, derives, fun context more enough => ?_⟩
  have remains : [Token.mk .blockClose 1] ≠ [] := List.cons_ne_nil _ _
  rw [context.statement_of_derives (derives.mono enough) remains (.of_endsStatement rfl)]
  cases lefts <;> rfl

/-- A text that is an equation is a document with this equation, unless it is nested too deeply. -/
theorem IsReadAsEquation.documentSteps_eq (read : IsReadAsEquation settings levels text tree)
    (nested : levels ≤ settings.nestingLevels) :
    documentSteps settings (settings.enclosed text) = [.equation 1 tree.program] := by
  obtain ⟨word, scanned, derives, reads⟩ := read
  have goesOn : Context.endsStatement (word ++ [⟨.blockClose, 1⟩]) = false := by
    obtain ⟨token, rest, rfl⟩ := List.exists_cons_of_ne_nil derives.ne_nil
    rw [List.cons_append, Context.endsStatement_cons]
    exact Lexeme.endsStatement_of_isOfExpression (derives.isOfExpression token (List.mem_cons_self ..))
  let context : Context := ⟨settings, .ok 1⟩
  have moves : (context.advance (word ++ [⟨.blockClose, 1⟩])).outcome = .ok (word ++ [⟨.blockClose, 1⟩]) := by
    rw [context.advance_of_ne_nil (by simp)]
    rfl
  rw [documentSteps_eq_stepsFrom, scanned, Context.stepsFrom_open, Context.stepsPast_of_ok moves,
    Context.stepsFrom_statement goesOn, reads _ _ nested]
  simp only [Context.endsStatement, ↓reduceIte]
  rw [Context.stepsFrom_close, Context.stepsPast_of_ok rfl, Context.stepsFrom_nil]
  rfl

/-- The equation of a document is what its engine is asked to solve, if there is room for building it. -/
theorem calls_of_equation {σ : Type} {engine : Engine σ Expr} (trees : engine.BuildsTrees)
    (wellFormed : tree.isWellFormed = true) (equation : tree.isEquation = true) {session : Session σ Expr}
    (ready : session.IsReady) (log : Array Entry)
    (room : engine.hasRoom session.engine (tree.room : Nat) = true) (line : Nat) :
    ∃ moment, engine.calls [.equation line tree.program] ⟨session, log⟩ = [.solve moment tree] := by
  have root : tree.operator? = some .equation := by
    cases tree with
    | binary operator left right =>
        cases operator <;> first | rfl | cases equation
    | _ => cases equation
  have built := Engine.build_of_room trees ready wellFormed log room
  rw [root] at built
  refine ⟨⟨{ session.building ⟨[tree]⟩ (some .equation) with phase := .equation }, log⟩, ?_⟩
  simp only [Engine.calls, Engine.call?, built, Engine.solveCall?, Session.building, Session.holding,
    Session.result?, Option.toList_some]
  split <;> rfl

end Equations

/-! ## Trees of documents -/

namespace Expr

/-- Whether a tree is that of an expression or an equation in a document. -/
def IsBuilt (settings : Settings) (tree : Expr) : Prop :=
  ∃ document word levels, word <:+: (scan settings document).tokens ∧
    (Derives .expression levels word tree ∨ DerivesEquation levels word tree)

end Expr

/-- Whether the names among some tokens are names and not the word for unnamed unknowns. -/
def HavePlainNames (settings : Settings) (tokens : List Token) : Prop :=
  ∀ token ∈ tokens, ∀ name, token.lexeme = .ident name → isName name.toList = true ∧ name ≠ settings.anonymousWord

section Trees

variable {settings : Settings} {category : Category} {levels : Nat} {word : List Token} {tree : Expr}

theorem Layout.written {left before passed : List Char} {inside last : Bool} {tokens : List Token}
    (layout : Layout settings left inside before tokens last passed) :
    ∀ token ∈ tokens, ∃ chars, token.lexeme.IsWritten settings chars := by
  induction layout with
  | done inside before => exact List.forall_mem_nil _
  | blank _ _ ih => exact ih
  | comment _ _ _ ih => exact ih
  | token _ written _ _ _ ih => exact List.forall_mem_cons.mpr ⟨⟨_, written⟩, ih⟩

/-- The names that a scan finds have no characters but those of names. -/
theorem scan_havePlainNames (usual : settings.HasUsualMarks) (document : String) :
    HavePlainNames settings (scan settings document).tokens := by
  obtain ⟨left, last, passed, layout⟩ := (scan_layout usual document).layout
  rintro token member name ident
  refine ⟨?_, ?_⟩
  · obtain ⟨chars, written⟩ := layout.written token member
    rw [ident] at written
    generalize same : Lexeme.ident name = lexeme at written
    cases written with
    | ident isName =>
        cases same
        rwa [String.toList_ofList]
    | _ => cases same
  · have allowed := scan_names settings document token member
    rw [ident] at allowed
    exact allowed

/-- The trees of tokens with plain names are legible if their numbers are. -/
theorem Derives.isLegible (derives : Derives category levels word tree) (names : HavePlainNames settings word)
    (numbers : ∀ part ∈ tree.subtrees, ∀ value, part = .number value → value.IsReadBack) :
    tree.IsLegible settings := by
  induction derives with
  | ofTerm _ ih | ofSigned _ ih | ofPower _ ih | ofPostfixed _ ih | ofPrimary _ ih => exact ih names numbers
  | sum _ _ first second | difference _ _ first second | product _ _ first second
  | quotient _ _ first second | power _ _ first second =>
      simp only [HavePlainNames, Expr.subtrees, List.forall_mem_append, List.forall_mem_cons] at names numbers
      exact ⟨first names.1 numbers.2.1, second names.2.2 numbers.2.2⟩
  | minus _ ih =>
      simp only [HavePlainNames, Expr.subtrees, List.forall_mem_cons] at names numbers
      exact ih names.2 numbers.2
  | plus _ ih => exact ih (List.forall_mem_cons.mp names).2 numbers
  | mediation _ _ _ scale first second =>
      simp only [HavePlainNames, Expr.subtrees, List.forall_mem_append, List.forall_mem_cons] at names numbers
      exact ⟨scale names.1 numbers.2.1.1, first names.2.2.1 numbers.2.1.2, second names.2.2.2.2.1 numbers.2.2⟩
  | number => exact numbers _ (List.mem_singleton.mpr rfl) _ rfl
  | anonymous => trivial
  | named => exact names _ (List.mem_singleton.mpr rfl) _ rfl
  | application _ ih =>
      simp only [HavePlainNames, Expr.subtrees, List.forall_mem_append, List.forall_mem_cons] at names numbers
      exact ⟨names.1 _ rfl, ih names.2.2.1 numbers.2.2⟩
  | parenthesised _ ih =>
      simp only [HavePlainNames, List.forall_mem_append, List.forall_mem_cons] at names
      exact ih names.2.1 numbers

end Trees

/-! ## The texts of trees -/

/-- Whether a text is an expression or an equation with a tree. -/
def IsReadBackAs (settings : Settings) (levels : Nat) (text : String) (tree : Expr) : Prop :=
  IsReadAs settings levels text tree ∨ IsReadAsEquation settings levels text tree

/-- Whether the numbers in a tree are read back from their texts. -/
def Expr.HasReadableNumbers (tree : Expr) : Prop :=
  ∀ part ∈ tree.subtrees, ∀ value, part = .number value → value.IsReadBack

/-- No equation is an expression. -/
theorem Expr.isExpression_of_isEquation {tree : Expr} (equation : tree.isEquation = true) :
    tree.isExpression = false := by
  cases tree with
  | binary operator left right => cases operator <;> first | rfl | cases equation
  | _ => cases equation

section Texts

variable {settings : Settings} {levels fewer : Nat} {text : String} {tree other : Expr} {word : List Token}

/-- A text is read as one tree only. -/
theorem IsReadBackAs.unique (read : IsReadBackAs settings levels text tree)
    (readOther : IsReadBackAs settings fewer text other) : other = tree := by
  rcases read with ⟨first, scanned, derives, _⟩ | ⟨first, scanned, derives, _⟩ <;>
    rcases readOther with ⟨second, again, derivesOther, _⟩ | ⟨second, again, derivesOther, _⟩ <;>
    cases block_eq_of_scan scanned again
  · exact derives.unique_of_expression derivesOther
  · exact (derivesOther.not_derives derives).elim
  · exact (derives.not_derives derivesOther).elim
  · exact derives.unique derivesOther

/-- The text of a tree that was built from a document is read back as the tree that the text shows. -/
theorem Expr.IsBuilt.isReadBackAs (usual : settings.HasUsualMarks) (word : settings.anonymousWord = "whatever")
    (built : tree.IsBuilt settings) (numbers : tree.HasReadableNumbers) :
    IsReadBackAs settings tree.nodes tree.toText tree.reread := by
  obtain ⟨document, tokens, levels, inside, derives⟩ := built
  have names : HavePlainNames settings tokens := fun token member =>
    scan_havePlainNames usual document token (inside.subset member)
  rcases derives with derives | derives
  · have shows := Expr.shows_toText usual word derives.isExpression (derives.isLegible names numbers)
    exact .inl ((shows.expression usual).isReadAs usual)
  · obtain @⟨left, right, a, b, line, first, second⟩ := derives
    simp only [HavePlainNames, List.forall_mem_append, List.forall_mem_cons] at names
    simp only [Expr.HasReadableNumbers, Expr.subtrees, List.forall_mem_append, List.forall_mem_cons] at numbers
    have showsFirst := Expr.shows_toText usual word first.isExpression (first.isLegible names.1 numbers.2.1)
    have showsSecond := Expr.shows_toText usual word second.isExpression (second.isLegible names.2.2 numbers.2.2)
    have whole : (Expr.binary .equation a b).toText.toList =
        a.toText.toList ++ ' ' :: '=' :: ' ' :: b.toText.toList := by
      simp [String.toList_append]
    exact .inr (((showsFirst.expression usual).mono (Nat.le_add_right_of_le (Nat.le_add_right _ _))).isReadAsEquation
      usual ((showsSecond.expression usual).mono (Nat.le_add_right_of_le (Nat.le_add_left _ _))) whole)

end Texts

/-- The text of a tree of a document is read as one tree only, in which the signs of bases and scales stand in
front of the whole operation; so settled trees are read as themselves, and no two of them have the same text. The
text of an equation is a document in which this tree is to be solved, if it is not nested too deeply. -/
theorem shown_tree_reads {settings : Settings} (usual : settings.HasUsualMarks)
    (word : settings.anonymousWord = "whatever") {tree : Expr} (built : tree.IsBuilt settings)
    (numbers : tree.HasReadableNumbers) :
    IsReadBackAs settings tree.nodes tree.toText tree.reread ∧
    (∀ levels other, IsReadBackAs settings levels tree.toText other → other = tree.reread) ∧
    (tree.reread = tree ↔ tree.isSettled = true) ∧
    (∀ other : Expr, other.IsBuilt settings → other.HasReadableNumbers → other.toText = tree.toText →
      other.reread = tree.reread ∧ (tree.isSettled = true → other.isSettled = true → other = tree)) ∧
    (tree.isEquation = true → tree.nodes ≤ settings.nestingLevels →
      documentSteps settings (settings.enclosed tree.toText) = [.equation 1 tree.reread.program] ∧
      ∀ {σ : Type} (engine : Engine σ Expr), engine.BuildsTrees → ∀ (session : Session σ Expr) (log : Array Entry),
        session.IsReady → engine.hasRoom session.engine (tree.reread.room : Nat) = true →
        ∃ moment, engine.calls (documentSteps settings (settings.enclosed tree.toText)) ⟨session, log⟩ =
          [.solve moment tree.reread]) := by
  have read := built.isReadBackAs usual word numbers
  refine ⟨read, fun _ _ other => read.unique other, tree.reread_eq_self_iff, ?_, ?_⟩
  · intro other otherBuilt otherNumbers sameText
    have readOther := otherBuilt.isReadBackAs usual word otherNumbers
    rw [sameText] at readOther
    have same : other.reread = tree.reread := read.unique readOther
    refine ⟨same, fun settled otherSettled => ?_⟩
    rw [← other.reread_eq_self_iff.mpr otherSettled, same, tree.reread_eq_self_iff.mpr settled]
  · intro equation nested
    have isEquation : tree.reread.isEquation = true := by
      cases tree with
      | binary operator left right => cases operator <;> first | rfl | cases equation
      | _ => cases equation
    have readEquation : IsReadAsEquation settings tree.nodes tree.toText tree.reread := by
      rcases read with ⟨_, _, derives, _⟩ | asEquation
      · have expression := derives.isExpression
        rw [Expr.isExpression_of_isEquation isEquation] at expression
        cases expression
      · exact asEquation
    have steps := readEquation.documentSteps_eq nested
    refine ⟨steps, fun engine trees session log ready room => ?_⟩
    obtain ⟨_, _, derives, _⟩ := readEquation
    rw [steps]
    exact calls_of_equation trees derives.isWellFormed isEquation ready log room 1

/-- The tree of `(-x)[1, 2] = 1`. -/
def negatedScale : Expr :=
  .binary .equation (.mediation (.negation (.named "x")) (.number (.finite 1)) (.number (.finite 2)))
    (.number (.finite 1))

/-- The tree of `-x[1, 2] = 1`. -/
def negatedMediation : Expr :=
  .binary .equation (.negation (.mediation (.named "x") (.number (.finite 1)) (.number (.finite 2))))
    (.number (.finite 1))

theorem toText_negatedScale : negatedScale.toText = "-x[1, 2] = 1" := by
  have one : (Double.finite 1).toBrief = "1" := by decide +kernel
  have two : (Double.finite 2).toBrief = "2" := by decide +kernel
  simp only [negatedScale, Expr.toText_equation, Expr.toText_mediation, Expr.toText_negation, Expr.toText_named,
    Expr.toText_number, one, two]
  decide

theorem isBuilt_negatedScale : negatedScale.IsBuilt {} := by
  have inner : Derives .signed 3 [⟨.operator '-', 1⟩, ⟨.ident "x", 1⟩] (.negation (.named "x")) :=
    .minus (.ofPower (.ofPostfixed (.ofPrimary .named)))
  have number (value : Double) : Derives .expression 3 [⟨.number value, 1⟩] (.number value) :=
    .ofTerm (.ofSigned (.ofPower (.ofPostfixed (.ofPrimary .number))))
  have scale := @Derives.parenthesised _ _ _ 1 1 (.ofTerm (.ofSigned inner))
  have mediation := @Derives.mediation _ _ _ _ _ _ _ 1 1 1 (.ofPrimary scale) (number (.finite 1)) (number (.finite 2))
  have left := Derives.ofTerm (.ofSigned (.ofPower (.ofPostfixed mediation)))
  have whole := @DerivesEquation.intro _ _ _ _ _ 1 left ((number (.finite 1)).mono (Nat.le_succ 3))
  exact ⟨"\x7b\x7b (-x)[1, 2] = 1 \x7d\x7d", _, _, by decide +kernel, .inr whole⟩

theorem hasReadableNumbers_negatedScale : negatedScale.HasReadableNumbers := by
  have two : (Double.finite 2).IsReadBack := ⟨by decide +kernel, by decide +kernel⟩
  have one : (Double.finite 1).IsReadBack := ⟨by decide +kernel, by decide +kernel⟩
  simp [Expr.HasReadableNumbers, negatedScale, Expr.subtrees, one, two]

/-- The text of the tree of `(-x)[1, 2] = 1` is read as `-(x[1, 2]) = 1`. -/
theorem shown_tree_reads_negatedScale :
    IsReadBackAs {} 7 "-x[1, 2] = 1" negatedMediation ∧
      documentSteps {} "\x7b\x7b-x[1, 2] = 1\x7d\x7d" = [.equation 1 negatedMediation.program] := by
  have reads := shown_tree_reads Settings.hasUsualMarks_standard rfl isBuilt_negatedScale
    hasReadableNumbers_negatedScale
  rw [toText_negatedScale] at reads
  exact ⟨reads.1, (reads.2.2.2.2 rfl (by decide)).1⟩

/-- The equations `(-x)[1, 2] = 1` and `-x[1, 2] = 1` have two trees with the same text, which is not read as the
tree of the first. -/
theorem texts_not_distinct :
    documentSteps {} "\x7b\x7b (-x)[1, 2] = 1; -x[1, 2] = 1 \x7d\x7d" =
        [.equation 1 negatedScale.program, .equation 1 negatedMediation.program] ∧
      negatedScale.IsBuilt {} ∧ negatedScale.HasReadableNumbers ∧ negatedMediation ≠ negatedScale ∧
      negatedMediation.toText = negatedScale.toText ∧
      ∀ levels, ¬ IsReadBackAs {} levels negatedScale.toText negatedScale := by
  refine ⟨by decide +kernel, isBuilt_negatedScale, hasReadableNumbers_negatedScale, by decide, ?_,
    fun levels read => ?_⟩
  · simp only [negatedScale, negatedMediation, Expr.toText_equation, Expr.toText_mediation, Expr.toText_negation,
      String.append_assoc]
  · have other := isBuilt_negatedScale.isReadBackAs Settings.hasUsualMarks_standard rfl
      hasReadableNumbers_negatedScale
    have same : negatedScale = negatedScale.reread := other.unique read
    revert same
    decide

end EquationText
