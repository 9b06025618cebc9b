import EquationText.Proofs.Token.Continuation

/-! # Spelling tokens

A text in a block spells some tokens if it is scanned to them on its line, whatever comes after it that no name
and no numeral goes on with (`EquationText.Spells`). Texts are spelled piece by piece, from names, numerals,
signs and blanks, and between the usual marks a text is a document of its own
(`EquationText.Spells.scan_enclosed`).
-/

namespace EquationText

/-! ## Characters that tokens start with -/

section Characters

variable {c : Char}

/-- A character that starts a name is a letter of ASCII or an underscore. -/
theorem isNameStart_cases (starts : isNameStart c = true) :
    c = '_' ∨ 65 ≤ c.toNat ∧ c.toNat ≤ 90 ∨ 97 ≤ c.toNat ∧ c.toNat ≤ 122 := by
  change ((decide (65 ≤ c.val ∧ c.val ≤ 90) || (97 ≤ c.val && c.val ≤ 122)) || c = '_') = true at starts
  simp only [Bool.or_eq_true, Bool.and_eq_true, decide_eq_true_eq, UInt32.le_iff_toNat_le] at starts
  rcases starts with (upper | lower) | underscore
  · exact .inr (.inl upper)
  · exact .inr (.inr lower)
  · exact .inl underscore

theorem isAlphabetic_of_isNameStart (starts : isNameStart c = true) :
    (isAlphabetic c || decide (c = '_')) = true := by
  rcases isNameStart_cases starts with rfl | range
  · rfl
  · have ascii : isAscii c = true := decide_eq_true (by omega)
    rw [isAlphabetic, if_pos ascii]
    exact starts

theorem isDigitLike_of_isNameStart (starts : isNameStart c = true) : isDigitLike c = false := by
  have range := isNameStart_cases starts
  have bounds : 65 ≤ c.toNat ∧ c.toNat ≤ 122 := by
    rcases range with rfl | upper | lower
    · decide
    · omega
    · omega
  have ascii : isAscii c = true := decide_eq_true (by omega)
  rw [isDigitLike, if_pos ascii, Char.isDigit, Bool.and_eq_false_iff]
  refine .inr (decide_eq_false ?_)
  rw [UInt32.le_iff_toNat_le]
  exact Nat.not_le_of_lt (Nat.lt_of_lt_of_le (by decide) bounds.1)

/-- The decimal digits of a script are digits. -/
theorem isDigitLike_of_isDecimalDigit (digit : isDecimalDigit c = true) : isDigitLike c = true := by
  rw [isDecimalDigit, decimalDigit?] at digit
  rw [isDigitLike]
  split
  · rename_i ascii
    rw [if_pos ascii] at digit
    split at digit
    · assumption
    · cases digit
  · rename_i ascii
    rw [if_neg ascii] at digit
    have covered : (decimalZeros.all fun first =>
        digitRanges.any fun range => range.1 ≤ first && first + 9 ≤ range.2) = true := by
      decide +kernel
    split at digit
    · rename_i first found
      have held := List.find?_some found
      obtain ⟨range, member, around⟩ :=
        List.any_eq_true.mp (List.all_eq_true.mp covered first (List.mem_of_find?_eq_some found))
      simp only [Bool.and_eq_true, decide_eq_true_eq] at held around
      refine List.any_eq_true.mpr ⟨range, member, ?_⟩
      simp only [Bool.and_eq_true, decide_eq_true_eq]
      omega
    · cases digit

end Characters

/-- Whether a character starts neither the closing mark, nor a command or a comment, and is no blank. -/
structure StartsToken (c : Char) : Prop where
  close : c ≠ closeSign
  command : c ≠ '@'
  comment : c ≠ commentMark
  lineEnd : c ≠ '\n'
  blank : isBlockSpace c = false

/-- The characters that start no token. -/
def nonStarts : List Char := [closeSign, '@', commentMark, '\n', ' ', '\t', '\r']

theorem StartsToken.of_not_mem {c : Char} (other : c ∉ nonStarts) : StartsToken c := by
  simp only [nonStarts, List.mem_cons, List.not_mem_nil, or_false, not_or] at other
  obtain ⟨close, command, comment, lineEnd, space, tab, carriage⟩ := other
  refine ⟨close, command, comment, lineEnd, ?_⟩
  simp [isBlockSpace, space, tab, carriage]

/-- A character of a class without the characters that start no token. -/
theorem StartsToken.of_class {p : Char → Bool} {c : Char} (none : nonStarts.all (fun other => !p other) = true)
    (holds : p c = true) : StartsToken c := by
  refine .of_not_mem fun member => ?_
  have other := List.all_eq_true.mp none c member
  rw [holds] at other
  cases other

theorem StartsToken.of_isNameStart {c : Char} : isNameStart c = true → StartsToken c := .of_class (by decide)

theorem StartsToken.of_isDigitLike {c : Char} : isDigitLike c = true → StartsToken c := .of_class (by decide)

variable {settings : Settings} {openedAt line : Nat} {found : List Token}

/-- A step where a token starts. -/
theorem StartsToken.blockStep_eq {c : Char} (starts : StartsToken c) (usual : settings.HasUsualMarks)
    (rest : List Char) :
    blockStep settings openedAt line (c :: rest) =
      if isDigitLike c || (c = '.' && rest.head?.any isDigitLike) then numberStep (c :: rest)
      else if isAlphabetic c || c = '_' then nameStep settings (c :: rest)
      else if isOperatorSign c then .token (.operator c) 0 rest
      else if isMarkSign c then .token (.mark c) 0 rest
      else if c = ';' then .token .statementEnd 0 rest
      else .fault ((Cause.reading (.strayCharacter c)).onLine line) := by
  have close : [closeSign, closeSign].isPrefixOf (c :: rest) = false := by
    simp [List.isPrefixOf, starts.close.symm]
  have command : ['@'].isPrefixOf (c :: rest) = false := by
    simp [List.isPrefixOf, starts.command.symm]
  simp only [blockStep, charStep, usual.closeMark_toList, usual.commandMark_toList, close, command,
    starts.blank, if_neg starts.lineEnd, if_neg starts.comment, Bool.false_eq_true, ↓reduceIte]

/-- A sign is a token of its own. -/
theorem blockStep_operator (usual : settings.HasUsualMarks) {sign : Char} (isSign : isOperatorSign sign = true)
    (rest : List Char) :
    blockStep settings openedAt line (sign :: rest) = .token (.operator sign) 0 rest := by
  have starts : StartsToken sign := .of_class (by decide) isSign
  simp only [isOperatorSign, Bool.or_eq_true, decide_eq_true_eq] at isSign
  rcases isSign with ((((rfl | rfl) | rfl) | rfl) | rfl) | rfl <;> exact starts.blockStep_eq usual rest

theorem blockStep_mark (usual : settings.HasUsualMarks) {sign : Char} (isSign : isMarkSign sign = true)
    (rest : List Char) :
    blockStep settings openedAt line (sign :: rest) = .token (.mark sign) 0 rest := by
  have starts : StartsToken sign := .of_class (by decide) isSign
  simp only [isMarkSign, Bool.or_eq_true, decide_eq_true_eq] at isSign
  rcases isSign with (((rfl | rfl) | rfl) | rfl) | rfl <;> exact starts.blockStep_eq usual rest

/-- The scan of a block passes over a blank. -/
theorem scanBlock_blank (usual : settings.HasUsualMarks) (rest : List Char) :
    scanBlock settings openedAt line found (' ' :: rest) = scanBlock settings openedAt line found rest := by
  have blank : ∀ {c : Char} (tail : List Char), isBlockSpace c = true →
      blockStep settings openedAt line (c :: tail) = .skip (tail.dropWhile isBlockSpace) := by
    intro c tail space
    have close : [closeSign, closeSign].isPrefixOf (c :: tail) = false := by
      have other : closeSign ≠ c := by
        rintro rfl
        revert space
        decide
      simp [List.isPrefixOf, other]
    simp only [blockStep, charStep, usual.closeMark_toList, close, space, Bool.false_eq_true, ↓reduceIte]
  rw [scanBlock_of_skip (blank rest rfl)]
  cases rest with
  | nil => rfl
  | cons c tail =>
      cases space : isBlockSpace c with
      | true => rw [List.dropWhile_cons_of_pos space, scanBlock_of_skip (blank tail space)]
      | false => rw [List.dropWhile_cons_of_neg (by simp [space])]

/-! ## Texts that spell tokens -/

/-- Whether a text in a block is scanned to some tokens on its line, whatever comes after it that no name and no
numeral goes on with. -/
def Spells (settings : Settings) (cs : List Char) (lexemes : List Lexeme) : Prop :=
  ∀ openedAt line found next rest, isStop next = true →
    scanBlock settings openedAt line found (cs ++ next :: rest) =
      scanBlock settings openedAt line ((lexemes.map (Token.mk · line)).reverse ++ found) (next :: rest)

namespace Spells

variable {cs ds word figures : List Char} {lexemes others : List Lexeme} {sign : Char}

/-- A text may be followed by one that no name and no numeral goes on with. -/
theorem append (first : Spells settings cs lexemes) (second : Spells settings ds others)
    (stops : ds.head?.all isStop = true) : Spells settings (cs ++ ds) (lexemes ++ others) := by
  intro openedAt line found next rest stop
  have tokens : ((lexemes ++ others).map (Token.mk · line)).reverse ++ found =
      (others.map (Token.mk · line)).reverse ++ ((lexemes.map (Token.mk · line)).reverse ++ found) := by
    simp
  rw [tokens, List.append_assoc, ← second openedAt line _ next rest stop]
  cases ds with
  | nil => exact first openedAt line found next rest stop
  | cons d tail => exact first openedAt line found d (tail ++ next :: rest) stops

variable (usual : settings.HasUsualMarks)
include usual

theorem blank (rest : Spells settings cs lexemes) : Spells settings (' ' :: cs) lexemes := by
  intro openedAt line found next tail stop
  rw [List.cons_append, scanBlock_blank usual]
  exact rest openedAt line found next tail stop

theorem operator (isSign : isOperatorSign sign = true) (rest : Spells settings cs lexemes) :
    Spells settings (sign :: cs) (.operator sign :: lexemes) := by
  intro openedAt line found next tail stop
  rw [List.cons_append, scanBlock_of_token (blockStep_operator usual isSign _), Nat.add_zero,
    rest openedAt line _ next tail stop, List.map_cons, List.reverse_cons, List.append_assoc]
  rfl

theorem mark (isSign : isMarkSign sign = true) (rest : Spells settings cs lexemes) :
    Spells settings (sign :: cs) (.mark sign :: lexemes) := by
  intro openedAt line found next tail stop
  rw [List.cons_append, scanBlock_of_token (blockStep_mark usual isSign _), Nat.add_zero,
    rest openedAt line _ next tail stop, List.map_cons, List.reverse_cons, List.append_assoc]
  rfl

omit usual in
theorem nil : Spells settings [] [] := fun _ _ _ _ _ _ => rfl

/-- A name is a token, the word for unnamed unknowns included. -/
theorem name (isName : isName word = true) :
    Spells settings word
      [if String.ofList word = settings.anonymousWord then .keyword (String.ofList word)
        else .ident (String.ofList word)] := by
  intro openedAt line found next rest stop
  cases word with
  | nil => cases isName
  | cons c tail =>
      obtain ⟨starts, others⟩ := Bool.and_eq_true_iff.mp isName
      have taken : takeName (c :: tail) = some (c :: tail, []) := by
        have whole := List.all_eq_true.mp others
        rw [takeName, if_pos starts, List.takeWhile_eq_self_iff.mpr whole, List.dropWhile_eq_nil_iff.mpr whole]
      have step : blockStep settings openedAt line (c :: tail ++ next :: rest) =
          (nameStep settings (c :: tail)).followedBy (next :: rest) := by
        rw [← nameStep_before rest stop]
        refine ((StartsToken.of_isNameStart starts).blockStep_eq usual _).trans ?_
        have notPoint : c ≠ '.' := by
          rintro rfl
          revert starts
          decide
        rw [if_neg (by simp [isDigitLike_of_isNameStart starts, notPoint]),
          if_pos (isAlphabetic_of_isNameStart starts)]
        rfl
      rw [nameStep, taken] at step
      exact scanBlock_of_token step

/-- A numeral is a token for the number that it stands for. -/
theorem numeral (taken : takeNumeral figures = some (figures, [])) :
    Spells settings figures [.number (numeralValue figures)] := by
  intro openedAt line found next rest stop
  obtain ⟨-, nonempty⟩ := takeNumeral_append taken
  obtain ⟨c, tail, rfl⟩ := List.exists_cons_of_ne_nil nonempty
  have starts : isDecimalDigit c = true ∨ c = '.' ∧ tail.head?.any isDecimalDigit = true := by
    by_contra none
    obtain ⟨notDigit, notPoint⟩ := not_or.mp none
    have noMantissa : takeMantissa (c :: tail) = .none := by
      rw [takeMantissa, List.takeWhile_cons_of_neg notDigit, List.dropWhile_cons_of_neg notDigit]
      by_cases point : c = '.'
      · subst point
        exact if_neg fun digit => notPoint ⟨rfl, digit⟩
      · simp [point]
    rw [takeNumeral, noMantissa] at taken
    cases taken
  have step : blockStep settings openedAt line (c :: tail ++ next :: rest) =
      (numberStep (c :: tail)).followedBy (next :: rest) := by
    rw [← numberStep_before rest stop]
    rcases starts with digit | ⟨rfl, digit⟩
    · have like := isDigitLike_of_isDecimalDigit digit
      refine ((StartsToken.of_isDigitLike like).blockStep_eq usual _).trans ?_
      rw [if_pos (by simp [like])]
      rfl
    · have point : StartsToken '.' := .of_not_mem (by decide)
      refine (point.blockStep_eq usual _).trans ?_
      cases tail with
      | nil => cases digit
      | cons d others =>
          have like := isDigitLike_of_isDecimalDigit digit
          rw [if_pos (by simp [like])]
          rfl
  rw [numberStep, taken] at step
  exact scanBlock_of_token step

end Spells

/-- A text with the marks of a block around it. -/
def Settings.enclosed (settings : Settings) (text : String) : String :=
  settings.openMark ++ text ++ settings.closeMark

/-- Between the usual marks a text is a document with the tokens that it spells. -/
theorem Spells.scan_enclosed {text : String} {lexemes : List Lexeme} (usual : settings.HasUsualMarks)
    (spells : Spells settings text.toList lexemes) :
    scan settings (settings.enclosed text) =
      ⟨⟨.blockOpen, 1⟩ :: (lexemes.map (Token.mk · 1) ++ [⟨.blockClose, 1⟩]), .ok 1⟩ := by
  have whole : (settings.enclosed text).toList =
      ['\x7b', '\x7b'] ++ (text.toList ++ [closeSign, closeSign]) := by
    rw [Settings.enclosed, String.toList_append, String.toList_append, usual.closeMark_toList,
      usual.openMark_toList, List.append_assoc]
  have split : splitAtMark settings.openMark.toList []
      (['\x7b', '\x7b'] ++ (text.toList ++ [closeSign, closeSign])) =
        ([], some (text.toList ++ [closeSign, closeSign])) := by
    rw [usual.openMark_toList]
    rfl
  have close : ∀ found, scanBlock settings 1 1 found [closeSign, closeSign] =
      (⟨.blockClose, 1⟩ :: found, .ok (1, [])) := by
    intro found
    refine scanBlock_of_close ?_
    simp [blockStep, charStep, usual.closeMark_toList, List.isPrefixOf]
  have block : scanOpened settings 1 [] [] (text.toList ++ [closeSign, closeSign]) =
      (⟨.blockClose, 1⟩ :: ((lexemes.map (Token.mk · 1)).reverse ++ [⟨.blockOpen, 1⟩]), .ok (1, [])) := by
    have opened : (placeLiteral 1 [] []).1 = [] := by
      simp [placeLiteral, pieces, piecesFrom, collectWords]
    rw [scanOpened, opened]
    refine (spells 1 1 [⟨.blockOpen, 1⟩] closeSign [closeSign] isStop_closeSign).trans ?_
    exact close _
  have nonempty : ['\x7b', '\x7b'] ++ (text.toList ++ [closeSign, closeSign]) ≠ [] := List.cons_ne_nil _ _
  rw [scan, whole, scanDocument_of_block nonempty split block (by simp), scanDocument_nil]
  simp

end EquationText
