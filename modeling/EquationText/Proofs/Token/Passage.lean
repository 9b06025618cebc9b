import EquationText.Token.Scan
import Mathlib.Algebra.Ring.Nat
import Mathlib.Data.List.TakeWhile
import Mathlib.Tactic.Common

/-! # What scanning passes over

What a step inside a block is depends on the text it is at (`EquationText.blockStep_shape`). Every step passes
over the start of the text, and counts the line ends in what it passes (`EquationText.blockStep_passes`); the
pieces of a literal text make it up (`EquationText.chars_of_pieces`), so that the line after it is counted in
the same way (`EquationText.placeLiteral_line`).
-/

namespace EquationText

@[simp]
theorem lineEnds_nil : lineEnds [] = 0 := rfl

@[simp]
theorem lineEnds_append (first second : List Char) :
    lineEnds (first ++ second) = lineEnds first + lineEnds second := List.count_append

theorem lineEnds_cons (c : Char) (rest : List Char) :
    lineEnds (c :: rest) = (if c = '\n' then 1 else 0) + lineEnds rest := by
  rw [lineEnds, List.count_cons, Nat.add_comm]
  simp only [beq_iff_eq, lineEnds]

theorem lineEnds_eq_zero {cs : List Char} (absent : ∀ c ∈ cs, c ≠ '\n') : lineEnds cs = 0 :=
  List.count_eq_zero.mpr fun member => absent _ member rfl

/-- Whether `rest` is left of a text after passing over some line ends. -/
def Passes (lines : Nat) (cs rest : List Char) : Prop :=
  ∃ passed, cs = passed ++ rest ∧ lineEnds passed = lines

namespace Passes

variable {lines further : Nat} {cs middle rest : List Char} {c : Char}

theorem refl (cs : List Char) : Passes 0 cs cs := ⟨[], rfl, rfl⟩

theorem cons (plain : c ≠ '\n') (passes : Passes lines cs rest) : Passes lines (c :: cs) rest := by
  obtain ⟨passed, rfl, rfl⟩ := passes
  exact ⟨c :: passed, rfl, by rw [lineEnds_cons, if_neg plain, Nat.zero_add]⟩

theorem trans (first : Passes lines cs middle) (second : Passes further middle rest) :
    Passes (lines + further) cs rest := by
  obtain ⟨start, rfl, rfl⟩ := first
  obtain ⟨passed, rfl, rfl⟩ := second
  exact ⟨start ++ passed, (List.append_assoc ..).symm, lineEnds_append ..⟩

/-- A part that ends before a line end passes over none. -/
theorem dropWhile {p : Char → Bool} (stops : p '\n' = false) (cs : List Char) :
    Passes 0 cs (cs.dropWhile p) := by
  refine ⟨cs.takeWhile p, List.takeWhile_append_dropWhile.symm, lineEnds_eq_zero ?_⟩
  rintro _ member rfl
  rw [List.mem_takeWhile_imp member] at stops
  cases stops

end Passes

/-! ## Names and numerals -/

theorem isNameStart_ne_lineEnd {c : Char} (start : isNameStart c = true) : c ≠ '\n' := by
  rintro rfl
  revert start
  decide

theorem takeName_passes {cs : List Char} {name : List Char × List Char}
    (taken : takeName cs = some name) : Passes 0 cs name.2 := by
  unfold takeName at taken
  split at taken
  · cases taken
  · rename_i c rest
    split at taken
    · rename_i start
      cases taken
      exact (Passes.dropWhile (by decide) rest).cons (isNameStart_ne_lineEnd start)
    · cases taken

theorem takeSign_passes (cs : List Char) : Passes 0 cs (takeSign cs).2 := by
  unfold takeSign
  split
  · exact .cons (by decide) (.refl _)
  · exact .cons (by decide) (.refl _)
  · exact .refl _

theorem isDecimalDigit_lineEnd : isDecimalDigit '\n' = false := by decide

/-- The exponent of a numeral stands on one line. -/
theorem takeExponent_passes (cs : List Char) : Passes 0 cs (takeExponent cs).2 := by
  unfold takeExponent
  split
  · exact .refl _
  · rename_i mark rest
    split
    · rename_i exponent
      have plain : mark ≠ '\n' := by
        rintro rfl
        revert exponent
        simp
      exact ((takeSign_passes rest).trans (.dropWhile isDecimalDigit_lineEnd _)).cons plain
    · exact .refl _

/-- The mantissa of a numeral stands on one line. -/
theorem takeMantissa_passes {cs : List Char} {mantissa : List Char × List Char}
    (taken : takeMantissa cs = some mantissa) : Passes 0 cs mantissa.2 := by
  have whole := Passes.dropWhile isDecimalDigit_lineEnd cs
  have tail : ∀ {rest}, Passes 0 cs ('.' :: rest) → Passes 0 cs (rest.dropWhile isDecimalDigit) :=
    fun passes => passes.trans
      (.cons (by decide) (.dropWhile isDecimalDigit_lineEnd _))
  unfold takeMantissa at taken
  split at taken
  · rename_i rest _ point
    rw [point] at whole
    split at taken
    · cases taken
      exact tail whole
    · cases taken
  · cases taken
  · rename_i rest _ point
    rw [point] at whole
    cases taken
    exact tail whole
  · cases taken
    exact whole

theorem takeNumeral_passes {cs : List Char} {numeral : List Char × List Char}
    (taken : takeNumeral cs = some numeral) : Passes 0 cs numeral.2 := by
  unfold takeNumeral at taken
  split at taken
  · cases taken
  · rename_i mantissa mantissaTaken
    cases taken
    exact (takeMantissa_passes mantissaTaken).trans (takeExponent_passes _)

/-! ## Blocks -/

theorem takePayload_passes (closeMark found cs : List Char) :
    Passes 0 cs (takePayload closeMark found cs).2 := by
  induction cs generalizing found with
  | nil => exact .refl _
  | cons c rest ih =>
      unfold takePayload
      split
      · exact .refl _
      · rename_i passed
        refine .cons ?_ (ih _)
        rintro rfl
        simp at passed

/-- How a step passes over the start of a text: tokens count their line ends, and nothing else has
any. -/
def BlockStep.Passes (closeMark cs : List Char) : BlockStep → Prop
  | skip rest => EquationText.Passes 0 cs rest
  | token _ lines rest => EquationText.Passes lines cs rest
  | close rest => cs = closeMark ++ rest
  | fault _ => True

variable {settings : Settings} {cs : List Char}

theorem commandStep_passes (line : Nat) (mark cs : List Char) (plain : lineEnds mark = 0) :
    (commandStep settings line cs).Passes settings.closeMark.toList (mark ++ cs) := by
  unfold commandStep
  split
  · trivial
  · rename_i name rest taken
    have passed : EquationText.Passes 0 (mark ++ cs) cs := ⟨mark, rfl, plain⟩
    exact passed.trans ((takeName_passes taken).trans (takePayload_passes _ _ _))

theorem nameStep_passes : (nameStep settings cs).Passes settings.closeMark.toList cs := by
  unfold nameStep
  split
  · trivial
  · rename_i taken
    exact takeName_passes taken

theorem numberStep_passes : (numberStep cs).Passes settings.closeMark.toList cs := by
  unfold numberStep
  split
  · trivial
  · rename_i taken
    exact takeNumeral_passes taken

/-- What a step inside a block is at each kind of text. -/
inductive StepShape (settings : Settings) (openedAt line : Nat) : List Char → BlockStep → Prop
  | ended : StepShape settings openedAt line [] (.fault ((Cause.reading .unterminatedBlock).onLine openedAt))
  | close (rest : List Char) :
    StepShape settings openedAt line (settings.closeMark.toList ++ rest) (.close rest)
  | blank {c : Char} (rest : List Char) (space : isBlockSpace c = true) :
    StepShape settings openedAt line (c :: rest) (.skip (rest.dropWhile isBlockSpace))
  | lineEnd (rest : List Char) : StepShape settings openedAt line ('\n' :: rest) (.token .statementEnd 1 rest)
  | comment (rest : List Char) :
    StepShape settings openedAt line (commentMark :: rest) (.skip (rest.dropWhile (· ≠ '\n')))
  | command (rest : List Char) :
    StepShape settings openedAt line (settings.commandMark.toList ++ rest) (commandStep settings line rest)
  | number {c : Char} {rest : List Char}
    (starts : (isDigitLike c || (c = '.' && rest.head?.any isDigitLike)) = true) :
    StepShape settings openedAt line (c :: rest) (numberStep (c :: rest))
  | name {c : Char} {rest : List Char} (starts : (isAlphabetic c || c = '_') = true) :
    StepShape settings openedAt line (c :: rest) (nameStep settings (c :: rest))
  | operator {c : Char} (rest : List Char) (sign : isOperatorSign c = true) :
    StepShape settings openedAt line (c :: rest) (.token (.operator c) 0 rest)
  | mark {c : Char} (rest : List Char) (sign : isMarkSign c = true) :
    StepShape settings openedAt line (c :: rest) (.token (.mark c) 0 rest)
  | semicolon (rest : List Char) : StepShape settings openedAt line (';' :: rest) (.token .statementEnd 0 rest)
  | stray (c : Char) (rest : List Char) :
    StepShape settings openedAt line (c :: rest) (.fault ((Cause.reading (.strayCharacter c)).onLine line))

/-- Every step inside a block is of one of these kinds, so that a property of steps has one case for each kind and
not one for each test of a character. -/
theorem blockStep_shape (settings : Settings) (openedAt line : Nat) (cs : List Char) :
    StepShape settings openedAt line cs (blockStep settings openedAt line cs) := by
  cases cs with
  | nil => exact .ended
  | cons c rest =>
      have marked : ∀ mark : List Char, mark.isPrefixOf (c :: rest) = true →
          c :: rest = mark ++ (c :: rest).drop mark.length := fun mark starts =>
        (List.prefix_iff_eq_append.mp (List.isPrefixOf_iff_prefix.mp starts)).symm
      rw [blockStep, charStep]
      -- In the order of the definition.
      refine iteInduction (fun close => ?_) fun _ => ?_
      · generalize same : (c :: rest).drop settings.closeMark.toList.length = left
        rw [marked _ close, same]
        exact .close left
      refine iteInduction (fun space => .blank rest space) fun _ => ?_
      refine iteInduction (fun lineEnd => lineEnd ▸ .lineEnd rest) fun _ => ?_
      refine iteInduction (fun comment => comment ▸ .comment rest) fun _ => ?_
      refine iteInduction (fun command => ?_) fun _ => ?_
      · generalize same : (c :: rest).drop settings.commandMark.toList.length = left
        rw [marked _ command, same]
        exact .command left
      refine iteInduction (fun starts => .number starts) fun _ => ?_
      refine iteInduction (fun starts => .name starts) fun _ => ?_
      refine iteInduction (fun sign => .operator rest sign) fun _ => ?_
      refine iteInduction (fun sign => .mark rest sign) fun _ => ?_
      exact iteInduction (fun semicolon => semicolon ▸ .semicolon rest) fun _ => .stray c rest

/-- A step inside a block passes over the start of the text, provided the mark of commands has no line
end. -/
theorem blockStep_passes (openedAt line : Nat) (cs : List Char)
    (plain : lineEnds settings.commandMark.toList = 0) :
    (blockStep settings openedAt line cs).Passes settings.closeMark.toList cs := by
  have shape := blockStep_shape settings openedAt line cs
  have single : ∀ {c : Char} {p : Char → Bool} {rest left : List Char}, p c = true → p '\n' = false →
      EquationText.Passes 0 rest left → EquationText.Passes 0 (c :: rest) left := by
    intro c p rest left holds other passes
    refine passes.cons ?_
    rintro rfl
    rw [other] at holds
    cases holds
  generalize blockStep settings openedAt line cs = step at shape ⊢
  cases shape with
  | ended => trivial
  | close rest => rfl
  | blank rest space => exact single space (by decide) (Passes.dropWhile (by decide) rest)
  | lineEnd rest => exact ⟨['\n'], rfl, rfl⟩
  | comment rest => exact (Passes.dropWhile (by simp) rest).cons (by decide)
  | command rest => exact commandStep_passes line _ rest plain
  | number => exact numberStep_passes
  | name => exact nameStep_passes
  | operator rest sign => exact single sign (by decide) (.refl rest)
  | mark rest sign => exact single sign (by decide) (.refl rest)
  | semicolon rest => exact .cons (by decide) (.refl rest)
  | stray => trivial

/-! ## The tokens of blocks -/

/-- Whether a token can be one inside a block. The word for an unnamed unknown is no name there. -/
def Lexeme.StandsInBlock (settings : Settings) : Lexeme → Prop
  | ident name => name ≠ settings.anonymousWord
  | keyword _ | number _ | operator _ | mark _ | statementEnd | command _ _ => True
  | text _ | reference _ | blockOpen | blockClose => False

section Lexeme

variable {lexeme : Lexeme} {openedAt line lines : Nat} {rest : List Char}

theorem commandStep_lexeme (step : commandStep settings line cs = .token lexeme lines rest) :
    lexeme.StandsInBlock settings := by
  unfold commandStep at step
  split at step
  · cases step
  · cases step
    trivial

theorem numberStep_lexeme (step : numberStep cs = .token lexeme lines rest) :
    lexeme.StandsInBlock settings := by
  unfold numberStep at step
  split at step
  · cases step
  · cases step
    trivial

theorem nameStep_lexeme (step : nameStep settings cs = .token lexeme lines rest) :
    lexeme.StandsInBlock settings := by
  unfold nameStep at step
  split at step
  · cases step
  · cases step
    split
    · trivial
    · rename_i different
      exact different

/-- The tokens of a block are found step by step. -/
theorem blockStep_lexeme (step : blockStep settings openedAt line cs = .token lexeme lines rest) :
    lexeme.StandsInBlock settings := by
  have shape := blockStep_shape settings openedAt line cs
  generalize blockStep settings openedAt line cs = found at shape step
  cases shape with
  | command rest => exact commandStep_lexeme step
  | number => exact numberStep_lexeme step
  | name => exact nameStep_lexeme step
  | lineEnd | operator | mark | semicolon =>
      cases step
      trivial
  | ended | close | blank | comment | stray => cases step

end Lexeme

/-! ## Literal text -/

/-- The suffix that names a part, and what is left behind it. -/
theorem takePartSuffix_append (cs : List Char) :
    (takePartSuffix cs).1 ++ (takePartSuffix cs).2 = cs ∧ lineEnds (takePartSuffix cs).1 = 0 := by
  unfold takePartSuffix
  split
  · rename_i part rest
    split
    · rename_i suffix
      refine ⟨rfl, lineEnds_eq_zero ?_⟩
      rintro c member rfl
      rcases List.mem_cons.mp member with first | second
      · cases first
      · cases List.mem_singleton.mp second
        simp at suffix
    · exact ⟨rfl, rfl⟩
  · exact ⟨rfl, rfl⟩

/-- A reference and what follows it make up the text, and it stands on one line. -/
theorem takeReference_append {start : Char} (begins : isNameStart start = true) (cs : List Char) :
    (takeReference start cs).1 ++ (takeReference start cs).2 = start :: cs ∧
      lineEnds (takeReference start cs).1 = 0 := by
  obtain ⟨whole, plain⟩ := takePartSuffix_append (cs.dropWhile isNameChar)
  refine ⟨?_, ?_⟩
  · simp only [takeReference, List.cons_append, List.append_assoc, whole,
      List.takeWhile_append_dropWhile]
  · have name : lineEnds (cs.takeWhile isNameChar) = 0 := by
      refine lineEnds_eq_zero ?_
      rintro _ member rfl
      have char := List.mem_takeWhile_imp member
      revert char
      decide
    simp only [takeReference, List.cons_append, lineEnds_cons, lineEnds_append, name, plain,
      if_neg (isNameStart_ne_lineEnd begins)]

/-- The line after a piece is counted from its characters. -/
def Piece.lineEnds : Piece → Nat
  | words raw => EquationText.lineEnds raw
  | reference _ => 0

/-- Some pieces in order make up a text, and count its line ends. -/
def MakeUp (pieces : List Piece) (cs : List Char) : Prop :=
  pieces.flatMap Piece.chars = cs ∧ (pieces.map Piece.lineEnds).sum = lineEnds cs

theorem MakeUp.append {first second : List Piece} {cs ds : List Char} (left : MakeUp first cs)
    (right : MakeUp second ds) : MakeUp (first ++ second) (cs ++ ds) := by
  refine ⟨?_, ?_⟩
  · rw [List.flatMap_append, left.1, right.1]
  · rw [List.map_append, List.sum_append, left.2, right.2, lineEnds_append]

theorem collectWords_makeUp (pending : List Char) {found : List Piece} {cs : List Char}
    (before : MakeUp found.reverse cs) :
    MakeUp (collectWords pending found).reverse (cs ++ pending.reverse) := by
  unfold collectWords
  split
  · rename_i none
    simpa [List.isEmpty_iff.mp none] using before
  · rw [List.reverse_cons]
    exact before.append ⟨by simp [Piece.chars], by simp [Piece.lineEnds]⟩

/-- The pieces that are found make up the text, with what is pending in front of it. -/
theorem piecesFrom_makeUp (previous : Option Char) (pending : List Char) (found : List Piece)
    (cs : List Char) {passed : List Char} (before : MakeUp found.reverse passed) :
    MakeUp (piecesFrom previous pending found cs) (passed ++ pending.reverse ++ cs) := by
  fun_induction piecesFrom previous pending found cs generalizing passed with
  | case1 previous pending found => simpa using collectWords_makeUp pending before
  | case2 previous pending found c rest begins reference =>
      rename_i ih
      obtain ⟨whole, plain⟩ := takeReference_append (Bool.and_eq_true_iff.mp begins).1 rest
      have single : MakeUp [.reference (takeReference c rest).1] (takeReference c rest).1 :=
        ⟨by simp [Piece.chars], by simp [Piece.lineEnds, plain]⟩
      have placed := (collectWords_makeUp pending before).append single
      rw [← List.reverse_cons] at placed
      have done := ih placed
      rwa [List.reverse_nil, List.append_nil, List.append_assoc _ (takeReference c rest).1, whole] at done
  | case3 previous pending found c rest other ih => simpa using ih before

/-- The pieces of a literal text make it up. -/
theorem chars_of_pieces (cs : List Char) : MakeUp (pieces cs) cs := by
  have nothing : MakeUp [] [] := ⟨rfl, rfl⟩
  exact piecesFrom_makeUp none [] [] cs nothing

/-- The line after a literal text. -/
theorem placeLiteral_line (found : List Token) (line : Nat) (cs : List Char) :
    (placeLiteral line found cs).2 = line + lineEnds cs := by
  have counted : ∀ (pieces : List Piece) (placed : List Token × Nat),
      (pieces.foldl placePiece placed).2 = placed.2 + (pieces.map Piece.lineEnds).sum := by
    intro pieces
    induction pieces with
    | nil => exact fun _ => rfl
    | cons piece rest ih =>
        intro placed
        rw [List.foldl_cons, ih, List.map_cons, List.sum_cons, ← Nat.add_assoc]
        cases piece <;> rfl
  rw [placeLiteral, counted, (chars_of_pieces cs).2]

end EquationText
