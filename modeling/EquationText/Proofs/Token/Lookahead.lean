import EquationText.Proofs.Token.Passage

/-! # What scanning looks at

With the usual marks no token reaches past the next closing mark, and none depends on what follows it: a
step of scanning does the same when more text is put after the closing mark
(`EquationText.blockStep_append`). Only a comment may hide the mark, up to the end of its line.
-/

namespace EquationText

/-- Whether blocks and commands have the marks of the standard settings. -/
structure Settings.HasUsualMarks (settings : Settings) : Prop where
  openMark : settings.openMark = "\x7b\x7b"
  closeMark : settings.closeMark = "\x7d\x7d"
  commandMark : settings.commandMark = "@"

theorem Settings.hasUsualMarks_standard : Settings.HasUsualMarks {} := ⟨rfl, rfl, rfl⟩

/-- The sign that makes up the usual closing mark. -/
def closeSign : Char := '\x7d'

theorem Settings.HasUsualMarks.closeMark_toList {settings : Settings} (usual : settings.HasUsualMarks) :
    settings.closeMark.toList = [closeSign, closeSign] := by
  rw [usual.closeMark]
  rfl

theorem Settings.HasUsualMarks.commandMark_toList {settings : Settings} (usual : settings.HasUsualMarks) :
    settings.commandMark.toList = ['@'] := by
  rw [usual.commandMark]
  rfl

/-- Whether the usual closing mark occurs in a text. -/
def Closes (cs : List Char) : Prop := [closeSign, closeSign] <:+: cs

namespace Closes

variable {cs : List Char} {c : Char} {rest : List Char} {p : Char → Bool}

theorem sign_mem (closes : Closes cs) : closeSign ∈ cs := closes.subset (List.mem_cons_self ..)

theorem tail (closes : Closes (c :: rest)) (other : ¬ [closeSign, closeSign] <+: c :: rest) :
    Closes rest := (List.infix_cons_iff.mp closes).resolve_left other

theorem tail_of_ne (closes : Closes (c :: rest)) (other : c ≠ closeSign) : Closes rest := by
  refine closes.tail fun starts => other ?_
  exact (List.cons_prefix_cons.mp starts).1.symm

/-- A part that the sign does not belong to leaves the mark in the text. -/
theorem dropWhile (closes : Closes cs) (stops : p closeSign = false) : Closes (cs.dropWhile p) := by
  induction cs with
  | nil => exact closes
  | cons c rest ih =>
      rw [List.dropWhile_cons]
      split
      · rename_i passed
        refine ih (closes.tail_of_ne ?_)
        rintro rfl
        rw [passed] at stops
        cases stops
      · exact closes

end Closes

section Lookahead

variable {p : Char → Bool} {c : Char} {cs : List Char} (more : List Char)

/-- A part that ends within a text does not depend on what follows the text. -/
theorem dropWhile_append_of_mem (member : c ∈ cs) (stops : p c = false) :
    (cs ++ more).dropWhile p = cs.dropWhile p ++ more := by
  rw [List.dropWhile_append, if_neg]
  intro none
  have passed := List.dropWhile_eq_nil_iff.mp (List.isEmpty_iff.mp none) c member
  rw [passed] at stops
  cases stops

theorem head?_append_of_mem (member : c ∈ cs) : (cs ++ more).head? = cs.head? := by
  obtain ⟨first, rest, rfl⟩ := List.exists_cons_of_ne_nil (List.ne_nil_of_mem member)
  rfl

/-! ## Names and numerals -/

/-- Whether a character belongs to no name and to no numeral. -/
def isStop (c : Char) : Bool := !(isNameChar c || isDecimalDigit c || c = '.' || c = '+' || c = '-')

section Stop

variable {t : Char}

theorem takeWhile_before (stops : p t = false) : (cs ++ t :: more).takeWhile p = cs.takeWhile p := by
  induction cs with
  | nil => exact List.takeWhile_cons_of_neg (by simp [stops])
  | cons c rest ih => simp only [List.cons_append, List.takeWhile_cons, ih]

theorem dropWhile_before (stops : p t = false) :
    (cs ++ t :: more).dropWhile p = cs.dropWhile p ++ t :: more := by
  induction cs with
  | nil => exact List.dropWhile_cons_of_neg (by simp [stops])
  | cons c rest ih =>
      simp only [List.cons_append, List.dropWhile_cons, ih]
      split <;> rfl

theorem head?_any_before (stops : p t = false) : (cs ++ t :: more).head?.any p = cs.head?.any p := by
  cases cs with
  | nil => exact stops
  | cons c rest => rfl

theorem isNameChar_of_isNameStart (starts : isNameStart c = true) : isNameChar c = true := by
  simp only [isNameStart, isNameChar, Char.isAlphanum, Bool.or_eq_true] at *
  exact starts.imp_left .inl

variable (stop : isStop t = true)
include stop

omit more in
theorem isStop_iff : isNameChar t = false ∧ isDecimalDigit t = false ∧ t ≠ '.' ∧ t ≠ '+' ∧ t ≠ '-' := by
  simpa [isStop, and_assoc] using stop

theorem takeName_before :
    takeName (cs ++ t :: more) = (takeName cs).map fun name => (name.1, name.2 ++ t :: more) := by
  obtain ⟨noName, _⟩ := isStop_iff stop
  cases cs with
  | nil =>
      have noStart : ¬ isNameStart t = true := fun starts => by
        rw [isNameChar_of_isNameStart starts] at noName
        cases noName
      exact if_neg noStart
  | cons start rest =>
      simp only [List.cons_append, takeName, takeWhile_before more noName, dropWhile_before more noName]
      split <;> rfl

/-- The sign of an exponent is found by what stands before the character that stops a numeral. -/
theorem takeSign_before :
    takeSign (cs ++ t :: more) = ((takeSign cs).1, (takeSign cs).2 ++ t :: more) := by
  obtain ⟨_, _, _, notPlus, notMinus⟩ := isStop_iff stop
  have plain : ∀ {sign : Char} (tail : List Char), sign ≠ '+' → sign ≠ '-' →
      takeSign (sign :: tail) = ([], sign :: tail) := by
    intro sign tail plus minus
    unfold takeSign
    split
    · rename_i same
      cases same
      exact (plus rfl).elim
    · rename_i same
      cases same
      exact (minus rfl).elim
    · rfl
  cases cs with
  | nil => exact plain more notPlus notMinus
  | cons sign rest =>
      by_cases plus : sign = '+'
      · subst plus
        rfl
      by_cases minus : sign = '-'
      · subst minus
        rfl
      rw [List.cons_append, plain _ plus minus, plain _ plus minus]
      rfl

/-- An exponent does not reach past a character that stops a numeral. -/
theorem takeExponent_before :
    takeExponent (cs ++ t :: more) = ((takeExponent cs).1, (takeExponent cs).2 ++ t :: more) := by
  obtain ⟨noName, noDigit, _⟩ := isStop_iff stop
  cases cs with
  | nil =>
      have noMark : (decide (t = 'e') || decide (t = 'E')) = false := by
        refine Bool.eq_false_iff.mpr fun mark => ?_
        rcases Bool.or_eq_true_iff.mp mark with lower | upper
        · rw [of_decide_eq_true lower] at noName
          cases noName
        · rw [of_decide_eq_true upper] at noName
          cases noName
      simp [takeExponent, noMark]
  | cons mark rest =>
      simp only [List.cons_append, takeExponent, takeSign_before more stop, head?_any_before more noDigit,
        takeWhile_before more noDigit, dropWhile_before more noDigit]
      split <;> rfl

/-- A mantissa does not reach past a character that stops a numeral. -/
theorem takeMantissa_before : takeMantissa (cs ++ t :: more) =
    (takeMantissa cs).map fun mantissa => (mantissa.1, mantissa.2 ++ t :: more) := by
  obtain ⟨_, noDigit, noPoint, _⟩ := isStop_iff stop
  unfold takeMantissa
  rw [takeWhile_before more noDigit, dropWhile_before more noDigit]
  rcases cs.dropWhile isDecimalDigit with _ | ⟨next, tail⟩
  · cases cs.takeWhile isDecimalDigit <;> simp [noPoint]
  by_cases point : next = '.'
  · subst point
    cases cs.takeWhile isDecimalDigit with
    | nil =>
        simp only [List.cons_append, head?_any_before more noDigit, takeWhile_before more noDigit,
          dropWhile_before more noDigit]
        split <;> rfl
    | cons digit digits =>
        simp only [List.cons_append, takeWhile_before more noDigit, dropWhile_before more noDigit]
        rfl
  · cases cs.takeWhile isDecimalDigit <;> simp [point]

theorem takeNumeral_before :
    takeNumeral (cs ++ t :: more) = (takeNumeral cs).map fun numeral => (numeral.1, numeral.2 ++ t :: more) := by
  unfold takeNumeral
  rw [takeMantissa_before more stop]
  cases takeMantissa cs with
  | none => rfl
  | some mantissa => simp only [Option.map_some, takeExponent_before more stop]

end Stop

theorem isStop_closeSign : isStop closeSign = true := by decide

theorem takeName_append (member : closeSign ∈ cs) :
    takeName (cs ++ more) = (takeName cs).map fun name => (name.1, name.2 ++ more) := by
  obtain ⟨passed, rest, rfl⟩ := List.append_of_mem member
  rw [List.append_assoc, List.cons_append, takeName_before _ isStop_closeSign,
    takeName_before _ isStop_closeSign, Option.map_map]
  simp [Function.comp_def]

end Lookahead

/-! ## Blocks -/

section Payload

variable {c : Char} {cs found : List Char} (more : List Char)

theorem isPrefixOf_closeMark_append (tail : cs ≠ []) :
    [closeSign, closeSign].isPrefixOf (c :: (cs ++ more)) = [closeSign, closeSign].isPrefixOf (c :: cs) := by
  obtain ⟨next, rest, rfl⟩ := List.exists_cons_of_ne_nil tail
  simp [List.isPrefixOf]

/-- A payload ends before the closing mark at the latest. -/
theorem takePayload_append_of_closes (closes : Closes cs) :
    takePayload [closeSign, closeSign] found (cs ++ more) =
      ((takePayload [closeSign, closeSign] found cs).1,
        (takePayload [closeSign, closeSign] found cs).2 ++ more) := by
  induction cs generalizing found with
  | nil => cases closes.sign_mem
  | cons c rest ih =>
      have nonempty : rest ≠ [] := by
        rintro rfl
        have short := closes.length_le
        simp at short
      simp only [List.cons_append, takePayload, isPrefixOf_closeMark_append more nonempty]
      split
      · rfl
      · rename_i passed
        refine ih (closes.tail fun starts => ?_)
        simp [List.isPrefixOf_iff_prefix.mpr starts] at passed

end Payload

/-- Choices that are made alike are compared where they are made. -/
theorem BlockStep.ite_eq (change : BlockStep → BlockStep) {p : Prop} [Decidable p]
    {first second other another : BlockStep} (yes : p → first = change other)
    (no : ¬ p → second = change another) :
    (if p then first else second) = change (if p then other else another) := by
  by_cases holds : p
  · rw [if_pos holds, if_pos holds, yes holds]
  · rw [if_neg holds, if_neg holds, no holds]

namespace BlockStep

/-- The step with more text after what it leaves. -/
def followedBy (more : List Char) : BlockStep → BlockStep
  | skip rest => skip (rest ++ more)
  | token lexeme lines rest => token lexeme lines (rest ++ more)
  | close rest => close (rest ++ more)
  | fault found => fault found

theorem followedBy_followedBy (step : BlockStep) (more further : List Char) :
    (step.followedBy more).followedBy further = step.followedBy (more ++ further) := by
  cases step <;> simp [followedBy]

end BlockStep

section Step

variable {settings : Settings} {openedAt line : Nat} {cs : List Char} (more : List Char)

/-- A command inside a block that is closed takes nothing behind the block. -/
theorem commandStep_append (usual : settings.HasUsualMarks) (closes : Closes cs) :
    commandStep settings line (cs ++ more) = (commandStep settings line cs).followedBy more := by
  unfold commandStep
  rw [takeName_append more closes.sign_mem, usual.closeMark_toList]
  cases taken : takeName cs with
  | none => rfl
  | some name =>
      have left : Closes name.2 := by
        unfold takeName at taken
        split at taken
        · cases taken
        · rename_i start rest
          split at taken
          · rename_i begins
            cases taken
            refine (closes.tail_of_ne ?_).dropWhile (by decide)
            rintro rfl
            revert begins
            decide
          · cases taken
      simp only [Option.map_some, takePayload_append_of_closes more left]
      rfl

section Stop

variable {t : Char} (stop : isStop t = true)
include stop

theorem nameStep_before :
    nameStep settings (cs ++ t :: more) = (nameStep settings cs).followedBy (t :: more) := by
  unfold nameStep
  rw [takeName_before more stop]
  cases takeName cs <;> rfl

theorem numberStep_before : numberStep (cs ++ t :: more) = (numberStep cs).followedBy (t :: more) := by
  unfold numberStep
  rw [takeNumeral_before more stop]
  cases takeNumeral cs <;> rfl

end Stop

theorem nameStep_append (member : closeSign ∈ cs) :
    nameStep settings (cs ++ more) = (nameStep settings cs).followedBy more := by
  obtain ⟨passed, rest, rfl⟩ := List.append_of_mem member
  rw [List.append_assoc, List.cons_append, nameStep_before _ isStop_closeSign,
    nameStep_before _ isStop_closeSign, BlockStep.followedBy_followedBy]
  rfl

theorem numberStep_append (member : closeSign ∈ cs) :
    numberStep (cs ++ more) = (numberStep cs).followedBy more := by
  obtain ⟨passed, rest, rfl⟩ := List.append_of_mem member
  rw [List.append_assoc, List.cons_append, numberStep_before _ isStop_closeSign,
    numberStep_before _ isStop_closeSign, BlockStep.followedBy_followedBy]
  rfl

/-- Whether what a step looks at behind the first character of a text is the same with more text after it. -/
structure LooksAlike (settings : Settings) (line : Nat) (c : Char) (rest more : List Char) : Prop where
  close : [closeSign, closeSign].isPrefixOf (c :: (rest ++ more)) = [closeSign, closeSign].isPrefixOf (c :: rest)
  blanks : (rest ++ more).dropWhile isBlockSpace = rest.dropWhile isBlockSpace ++ more
  comment : c = commentMark → (rest ++ more).dropWhile (· ≠ '\n') = rest.dropWhile (· ≠ '\n') ++ more
  command : c = '@' →
    commandStep settings line (rest ++ more) = (commandStep settings line rest).followedBy more
  digit : (rest ++ more).head?.any isDigitLike = rest.head?.any isDigitLike
  number : numberStep (c :: rest ++ more) = (numberStep (c :: rest)).followedBy more
  name : nameStep settings (c :: rest ++ more) = (nameStep settings (c :: rest)).followedBy more

/-- A step does not depend on what it does not look at. -/
theorem LooksAlike.blockStep_eq {c : Char} {rest more : List Char} (alike : LooksAlike settings line c rest more)
    (usual : settings.HasUsualMarks) :
    blockStep settings openedAt line (c :: rest ++ more) =
      (blockStep settings openedAt line (c :: rest)).followedBy more := by
  have command : ['@'].isPrefixOf (c :: (rest ++ more)) = ['@'].isPrefixOf (c :: rest) := by
    simp [List.isPrefixOf]
  simp only [List.cons_append, blockStep, charStep, usual.closeMark_toList, usual.commandMark_toList,
    alike.close, alike.digit, command]
  refine BlockStep.ite_eq (·.followedBy more) (fun close => ?_) fun _ => ?_
  · obtain ⟨tail, whole⟩ := List.isPrefixOf_iff_prefix.mp close
    cases whole
    rfl
  refine BlockStep.ite_eq (·.followedBy more) (fun _ => by rw [alike.blanks]; rfl) fun _ => ?_
  refine BlockStep.ite_eq (·.followedBy more) (fun _ => rfl) fun _ => ?_
  refine BlockStep.ite_eq (·.followedBy more) (fun comment => by rw [alike.comment comment]; rfl) fun _ => ?_
  refine BlockStep.ite_eq (·.followedBy more) (fun starts => ?_) fun _ => ?_
  · obtain ⟨tail, whole⟩ := List.isPrefixOf_iff_prefix.mp starts
    cases whole
    exact alike.command rfl
  refine BlockStep.ite_eq (·.followedBy more) (fun _ => alike.number) fun _ => ?_
  refine BlockStep.ite_eq (·.followedBy more) (fun _ => alike.name) fun _ => ?_
  refine BlockStep.ite_eq (·.followedBy more) (fun _ => rfl) fun _ => ?_
  refine BlockStep.ite_eq (·.followedBy more) (fun _ => rfl) fun _ => ?_
  exact BlockStep.ite_eq (·.followedBy more) (fun _ => rfl) fun _ => rfl

/-- A step in a text with a closing mark does not depend on what follows the text, unless it is a comment
that is not ended there. -/
theorem blockStep_append (usual : settings.HasUsualMarks) (closes : Closes cs)
    (ended : ∀ rest, cs = commentMark :: rest → '\n' ∈ rest) :
    blockStep settings openedAt line (cs ++ more) =
      (blockStep settings openedAt line cs).followedBy more := by
  cases cs with
  | nil => cases closes.sign_mem
  | cons c rest =>
      have member : closeSign ∈ rest := by
        obtain ⟨before, after, whole⟩ := closes
        cases before with
        | nil =>
            cases whole
            exact List.mem_cons_self ..
        | cons first before =>
            cases whole
            simp
      refine LooksAlike.blockStep_eq ⟨?_, ?_, fun comment => ?_, fun command => ?_, ?_, ?_, ?_⟩ usual
      · exact isPrefixOf_closeMark_append more (List.ne_nil_of_mem member)
      · exact dropWhile_append_of_mem more member (by decide)
      · exact dropWhile_append_of_mem more (ended rest (by rw [comment])) (by decide)
      · exact commandStep_append more usual (closes.tail_of_ne (by rw [command]; decide))
      · rw [head?_append_of_mem more member]
      · exact numberStep_append more (List.mem_cons_of_mem c member)
      · exact nameStep_append more (List.mem_cons_of_mem c member)

end Step

end EquationText
