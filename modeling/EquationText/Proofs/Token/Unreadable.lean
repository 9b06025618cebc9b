import EquationText.Proofs.Token.Continuation

/-! # How scanning fails

The scan of a document ends with a fault that has a line, or at a character that counts as a letter or as a
digit but starts no name and no numeral (`EquationText.scan_fault`).
-/

namespace EquationText

/-- Whether a text in a block starts with a letter that starts no name, or with a digit that starts no
numeral, after a point or without one. -/
def IsUnreadable : List Char → Prop
  | [] => False
  | c :: rest =>
    isAlphabetic c = true ∧ isNameStart c = false ∨
      isDigitLike c = true ∧ isDecimalDigit c = false ∨
      c = '.' ∧ ∃ next ∈ rest.head?, isDigitLike next = true ∧ isDecimalDigit next = false

/-- How scanning fails when some text is left of a block. -/
inductive ScanFault (left : List Char) : Fault → Prop
  | strayCharacter (c : Char) (line : Nat) : ScanFault left ((Cause.reading (.strayCharacter c)).onLine line)
  | unterminatedBlock (line : Nat) : ScanFault left ((Cause.reading .unterminatedBlock).onLine line)
  | missingCommandName (line : Nat) : ScanFault left ((Cause.reading .missingCommandName).onLine line)
  | unreadable (starts : IsUnreadable left) : ScanFault left Cause.unreadableCharacter.unplaced

/-! ## Steps -/

variable {settings : Settings} {openedAt line : Nat} {found : List Token} {cs rest : List Char} {c : Char}
  {fault : Fault}

/-- Where no numeral starts there is no decimal digit, not even behind a point. -/
theorem takeNumeral_eq_none (none : takeNumeral (c :: rest) = none) :
    isDecimalDigit c = false ∧ (c = '.' → ∀ next ∈ rest.head?, isDecimalDigit next = false) := by
  cases digit : isDecimalDigit c with
  | true =>
      rw [takeNumeral, takeMantissa, List.takeWhile_cons_of_pos digit] at none
      split at none
      · rename_i mantissa
        split at mantissa <;> simp_all
      · cases none
  | false =>
      refine ⟨rfl, ?_⟩
      rintro rfl next member
      rw [takeNumeral, takeMantissa, List.takeWhile_cons_of_neg (by simp [digit]),
        List.dropWhile_cons_of_neg (by simp [digit])] at none
      simp only [Option.mem_def.mp member, Option.any_some] at none
      cases decimal : isDecimalDigit next with
      | false => rfl
      | true =>
          rw [if_pos decimal] at none
          cases none

/-- A number that cannot be read starts with a digit that is not a decimal one, perhaps behind a point. -/
theorem numberStep_fault (starts : isDigitLike c || (c = '.' && rest.head?.any isDigitLike))
    (step : numberStep (c :: rest) = .fault fault) : ScanFault (c :: rest) fault := by
  unfold numberStep at step
  split at step
  · rename_i none
    cases step
    obtain ⟨notDecimal, noneAfter⟩ := takeNumeral_eq_none none
    refine .unreadable (.inr ?_)
    rcases Bool.or_eq_true_iff.mp starts with digit | point
    · exact .inl ⟨digit, notDecimal⟩
    · simp only [Bool.and_eq_true, decide_eq_true_eq, Option.any_eq_true] at point
      obtain ⟨isPoint, next, member, digit⟩ := point
      exact .inr ⟨isPoint, next, member, digit, noneAfter isPoint next member⟩
  · cases step

/-- A name that cannot be read starts with a letter that starts no name. -/
theorem nameStep_fault (starts : isAlphabetic c || decide (c = '_'))
    (step : nameStep settings (c :: rest) = .fault fault) : ScanFault (c :: rest) fault := by
  unfold nameStep at step
  split at step
  · rename_i none
    cases step
    have notStart : isNameStart c = false := by
      cases start : isNameStart c with
      | true => simp [takeName, start] at none
      | false => rfl
    refine .unreadable (.inl ⟨?_, notStart⟩)
    rcases Bool.or_eq_true_iff.mp starts with letter | underscore
    · exact letter
    · simp [isNameStart, of_decide_eq_true underscore] at notStart
  · cases step

/-- How a step inside a block fails. -/
theorem blockStep_fault (step : blockStep settings openedAt line cs = .fault fault) : ScanFault cs fault := by
  have shape := blockStep_shape settings openedAt line cs
  generalize blockStep settings openedAt line cs = found at shape step
  cases shape with
  | ended =>
      cases step
      exact .unterminatedBlock openedAt
  | command rest =>
      unfold commandStep at step
      split at step
      · cases step
        exact .missingCommandName line
      · cases step
  | number starts => exact numberStep_fault starts step
  | name starts => exact nameStep_fault starts step
  | stray c rest =>
      cases step
      exact .strayCharacter c line
  | close | blank | lineEnd | comment | operator | mark | semicolon => cases step

/-! ## Documents -/

/-- A block that stops with a fault does so at one of the texts that are left of it. -/
theorem scanBlock_fault (failed : (scanBlock settings openedAt line found cs).2 = .error fault) :
    ∃ left, ScanFault left fault ∧ (settings.HasUsualMarks → left <:+ cs) := by
  have passes : ∀ line cs, settings.HasUsualMarks →
      (blockStep settings openedAt line cs).Passes settings.closeMark.toList cs := fun line cs usual =>
    blockStep_passes openedAt line cs (by rw [usual.commandMark_toList]; rfl)
  fun_induction scanBlock settings openedAt line found cs with
  | case1 line found cs rest step ih =>
      obtain ⟨left, isFault, suffix⟩ := ih failed
      refine ⟨left, isFault, fun usual => (suffix usual).trans ?_⟩
      have passed := passes line cs usual
      rw [step] at passed
      obtain ⟨start, rfl, _⟩ := passed
      exact List.suffix_append ..
  | case2 line found cs lexeme lines rest step ih =>
      obtain ⟨left, isFault, suffix⟩ := ih failed
      refine ⟨left, isFault, fun usual => (suffix usual).trans ?_⟩
      have passed := passes line cs usual
      rw [step] at passed
      obtain ⟨start, rfl, _⟩ := passed
      exact List.suffix_append ..
  | case3 line found cs rest step => cases failed
  | case4 line found cs stopped step =>
      cases failed
      exact ⟨cs, blockStep_fault step, fun _ => List.suffix_rfl⟩

/-- A document that stops with a fault does so at one of the texts that are left of it. -/
theorem scanDocument_fault (failed : (scanDocument settings line found cs).ending = .error fault) :
    ∃ left, ScanFault left fault ∧ (settings.HasUsualMarks → left <:+ cs) := by
  have opens : ∀ {cs inside : List Char}, settings.HasUsualMarks →
      (splitAtMark settings.openMark.toList [] cs).2 = some inside → inside <:+ cs := by
    intro cs inside usual opened
    obtain ⟨passed, _, rfl, _⟩ := splitAtMark_some (Prod.ext rfl opened) (by simp [usual.openMark_toList])
    exact List.suffix_append ..
  fun_induction scanDocument settings line found cs with
  | case1 => cases failed
  | case2 => cases failed
  | case3 line found cs nonempty split placed inside opened tokens stopped block =>
      cases failed
      obtain ⟨left, isFault, suffix⟩ := scanBlock_fault (congrArg Prod.snd block)
      exact ⟨left, isFault, fun usual => (suffix usual).trans (opens usual opened)⟩
  | case4 line found cs nonempty split placed inside opened tokens lineAfter rest block shorter ih =>
      obtain ⟨left, isFault, suffix⟩ := ih failed
      refine ⟨left, isFault, fun usual => ((suffix usual).trans ?_).trans (opens usual opened)⟩
      obtain ⟨inner, rfl, _⟩ := scanBlock_closed usual block
      exact List.suffix_append ..
  | case5 => cases failed

/-- How the scan of a document fails, and where it does if the marks are the usual ones. -/
theorem scan_fault {text : String} (failed : (scan settings text).ending = .error fault) :
    ∃ left, ScanFault left fault ∧ (settings.HasUsualMarks → left <:+ text.toList) :=
  scanDocument_fault failed

end EquationText
