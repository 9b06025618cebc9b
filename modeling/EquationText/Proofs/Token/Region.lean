import EquationText.Proofs.Token.Layout

/-! # The regions of a document

With the usual marks a document is outside of blocks, among the statements of a block, in a comment or in a
command, and a character at a time tells where it is next (`EquationText.survey`). The scan of a block that is
closed ends where the survey leaves the block (`EquationText.survey_scanBlock`); only a comment hides the
closing mark.
-/

namespace EquationText

/-- Where a place in a document is. -/
inductive Region
  | outside
  | statements
  | comment
  | command
deriving DecidableEq

/-- Where a document is after a character that belongs to no mark of blocks. -/
def Region.next (region : Region) (c : Char) : Region :=
  match region with
  | outside => outside
  | statements => if c = '#' then comment else if c = '@' then command else statements
  | comment => if c = '\n' then statements else comment
  | command => if c = ';' ∨ c = '\n' then statements else command

/-- What a text that starts in a region has outside of blocks, and the region after it. -/
def survey : Region → List Char → List Char × Region
  | region, [] => ([], region)
  | .outside, '\x7b' :: '\x7b' :: rest => survey .statements rest
  | .statements, '\x7d' :: '\x7d' :: rest => survey .outside rest
  | .command, '\x7d' :: '\x7d' :: rest => survey .outside rest
  | .outside, c :: rest => (c :: (survey .outside rest).1, (survey .outside rest).2)
  | region, c :: rest => survey (region.next c) rest

variable {settings : Settings} {openedAt line lineAfter : Nat} {found tokens : List Token} {c : Char}
  {cs rest passed : List Char}

/-! ## One character -/

theorem survey_outside_cons (other : ¬ ['\x7b', '\x7b'] <+: c :: rest) :
    survey .outside (c :: rest) = (c :: (survey .outside rest).1, (survey .outside rest).2) := by
  rw [survey]
  intro tail first second
  exact other ⟨tail, by rw [first, second]; rfl⟩

/-- Inside a block a character moves the region on, unless a closing mark starts there, which has no meaning in a
comment. -/
theorem survey_cons (region : Region) (inside : region ≠ .outside)
    (other : region ≠ .comment → ¬ [closeSign, closeSign] <+: c :: rest) :
    survey region (c :: rest) = survey (region.next c) rest := by
  rw [survey]
  · rintro tail rfl
    exact absurd rfl inside
  · rintro tail rfl rfl rfl
    exact (other nofun ⟨tail, rfl⟩).elim
  · rintro tail rfl rfl rfl
    exact (other nofun ⟨tail, rfl⟩).elim
  · rintro rfl
    exact inside rfl

/-! ## Parts of blocks -/

theorem ne_closeSign_of_next {first : Char} (other : first ≠ closeSign) :
    ¬ [closeSign, closeSign] <+: first :: rest := fun starts =>
  other (List.cons_prefix_cons.mp starts).1.symm

/-- Whether a character starts no comment, no command and no closing mark. -/
def isPlain (c : Char) : Bool := c ≠ '#' && c ≠ '@' && c ≠ closeSign

theorem survey_statements_plain (plain : ∀ c ∈ passed, isPlain c = true) :
    survey .statements (passed ++ rest) = survey .statements rest := by
  induction passed with
  | nil => rfl
  | cons c later ih =>
      obtain ⟨head, others⟩ := List.forall_mem_cons.mp plain
      simp only [isPlain, Bool.and_eq_true, decide_eq_true_eq] at head
      obtain ⟨⟨noComment, noCommand⟩, noClose⟩ := head
      rw [List.cons_append, survey_cons .statements nofun fun _ => ne_closeSign_of_next noClose, ← ih others]
      simp only [Region.next, if_neg noComment, if_neg noCommand]

/-- A comment goes to the end of its line. -/
theorem survey_comment (cs : List Char) :
    survey .comment cs = if cs.dropWhile (· ≠ '\n') = [] then ([], .comment)
      else survey .statements (cs.dropWhile (· ≠ '\n')) := by
  induction cs with
  | nil => rfl
  | cons c rest ih =>
      rw [survey_cons .comment nofun fun noComment => (noComment rfl).elim]
      by_cases ended : c = '\n'
      · subst ended
        rw [List.dropWhile_cons_of_neg (by simp), if_neg (List.cons_ne_nil _ _),
          survey_cons .statements nofun fun _ => ne_closeSign_of_next (by decide)]
        rfl
      · rw [List.dropWhile_cons_of_pos (by simpa using ended), Region.next, if_neg ended]
        exact ih

/-- A payload ends before a semicolon, the end of the line or the closing mark. -/
theorem takePayload_of_stop {mark found : List Char} (stops : (c = ';' ∨ c = '\n') ∨ mark <+: c :: rest) :
    takePayload mark found (c :: rest) = (found.reverse, c :: rest) :=
  if_pos (by simpa only [Bool.or_eq_true, decide_eq_true_eq, List.isPrefixOf_iff_prefix] using stops)

theorem takePayload_of_no_stop {mark found : List Char} (goesOn : ¬ ((c = ';' ∨ c = '\n') ∨ mark <+: c :: rest)) :
    takePayload mark found (c :: rest) = takePayload mark (c :: found) rest :=
  if_neg (by simpa only [Bool.or_eq_true, decide_eq_true_eq, List.isPrefixOf_iff_prefix] using goesOn)

/-- A command goes as far as its payload. -/
theorem survey_command (found cs : List Char) :
    survey .command cs = if (takePayload [closeSign, closeSign] found cs).2 = [] then ([], .command)
      else survey .statements (takePayload [closeSign, closeSign] found cs).2 := by
  induction cs generalizing found with
  | nil => rfl
  | cons c rest ih =>
      by_cases closes : [closeSign, closeSign] <+: c :: rest
      · rw [takePayload_of_stop (.inr closes), if_neg (List.cons_ne_nil _ _)]
        obtain ⟨tail, whole⟩ := closes
        rw [← whole]
        rfl
      rw [survey_cons .command nofun fun _ => closes, Region.next]
      by_cases ended : c = ';' ∨ c = '\n'
      · have next : Region.statements.next c = .statements := by
          rcases ended with rfl | rfl <;> rfl
        rw [if_pos ended, takePayload_of_stop (.inl ended), if_neg (List.cons_ne_nil _ _),
          survey_cons .statements nofun fun _ => closes, next]
      · rw [if_neg ended, takePayload_of_no_stop (not_or.mpr ⟨ended, closes⟩)]
        exact ih (c :: found)

/-! ## Steps of a block -/

/-- Whether a text inside a block is a comment or a command to its end. -/
inductive IsUnended : List Char → Prop
  | comment {body : List Char} (all : body.dropWhile (· ≠ '\n') = []) : IsUnended (commentMark :: body)
  | command {rest payload : List Char} {name : List Char} (taken : takeName rest = some (name, payload))
    (all : (takePayload [closeSign, closeSign] [] payload).2 = []) : IsUnended ('@' :: rest)

/-- What a step inside a block does to the survey of the text. -/
def BlockStep.Surveys (cs : List Char) : BlockStep → Prop
  | skip rest | token _ _ rest => IsUnended cs ∧ rest = [] ∨ survey .statements cs = survey .statements rest
  | close rest => survey .statements cs = survey .outside rest
  | fault _ => True

/-- A character of a kind that the signs of comments, commands and closing marks are not of. -/
theorem isPlain_of {p : Char → Bool} (holds : p c = true)
    (others : p '#' = false ∧ p '@' = false ∧ p closeSign = false) : isPlain c = true := by
  have different : ∀ {other : Char}, p other = false → c ≠ other := by
    intro other fails same
    rw [← same, holds] at fails
    cases fails
  simp [isPlain, different others.1, different others.2.1, different others.2.2]

theorem isPlain_of_not_isStop (other : isStop c = false) : isPlain c = true :=
  isPlain_of (p := fun c => !isStop c) (by simp [other]) (by decide)

/-- Names and numerals have no stop in them. -/
theorem not_isStop_of_isNameChar (char : isNameChar c = true) : isStop c = false := by
  simp [isStop, char]

/-- No character of a numeral stops one. -/
theorem takeNumeral_not_isStop {numeral : List Char × List Char} (taken : takeNumeral cs = some numeral) :
    ∀ c ∈ numeral.1, isStop c = false := by
  -- The numeral stands before the first stop of the text.
  have whole := List.takeWhile_append_dropWhile (p := fun c => !isStop c) (l := cs)
  have plain : ∀ c ∈ cs.takeWhile (fun c => !isStop c), isStop c = false := fun c member => by
    simpa using List.mem_takeWhile_imp member
  suffices inside : numeral.1 <+: cs.takeWhile (fun c => !isStop c) from
    fun c member => plain c (inside.subset member)
  rcases left : cs.dropWhile (fun c => !isStop c) with _ | ⟨stop, more⟩
  · rw [left, List.append_nil] at whole
    rw [whole]
    exact ⟨_, (takeNumeral_append taken).1⟩
  · have stops : isStop stop = true := by
      have first := List.head?_dropWhile_not (fun c => !isStop c) cs
      rw [left] at first
      simpa using first
    rw [← whole, left, takeNumeral_before more stops] at taken
    obtain ⟨found, inner, rfl⟩ := Option.map_eq_some_iff.mp taken
    exact ⟨_, (takeNumeral_append inner).1⟩

theorem isNameChar_of_isName {name : List Char} (holds : isName name = true) :
    ∀ c ∈ name, isNameChar c = true := by
  cases name with
  | nil => exact List.forall_mem_nil _
  | cons c rest =>
      simp only [isName, Bool.and_eq_true, List.all_eq_true] at holds
      exact List.forall_mem_cons.mpr ⟨isNameChar_of_isNameStart holds.1, holds.2⟩

/-- The name of a command has no character that ends the command. -/
theorem survey_command_name {name : List Char} (holds : isName name = true) :
    survey .command (name ++ rest) = survey .command rest := by
  have chars := isNameChar_of_isName holds
  clear holds
  induction name with
  | nil => rfl
  | cons c later ih =>
      obtain ⟨char, others⟩ := List.forall_mem_cons.mp chars
      have different : ∀ {other : Char}, isNameChar other = false → c ≠ other := by
        intro other notChar same
        rw [← same, char] at notChar
        cases notChar
      have noClose : ¬ [closeSign, closeSign] <+: c :: (later ++ rest) := ne_closeSign_of_next (different (by decide))
      rw [List.cons_append, survey_cons .command nofun fun _ => noClose, Region.next,
        if_neg (not_or.mpr ⟨different (by decide), different (by decide)⟩)]
      exact ih others

/-- A command is over where its payload ends, unless that is the end of the text. -/
theorem commandStep_surveys (usual : settings.HasUsualMarks) (rest : List Char) :
    (commandStep settings line rest).Surveys ('@' :: rest) := by
  unfold commandStep
  rw [usual.closeMark_toList]
  split
  · trivial
  · rename_i name payload taken
    obtain ⟨whole, holds⟩ := takeName_isName taken
    have turns : survey .statements ('@' :: rest) = survey .command payload := by
      rw [survey_cons .statements nofun fun _ => ne_closeSign_of_next (by decide), whole]
      exact survey_command_name holds
    rw [survey_command []] at turns
    by_cases all : (takePayload [closeSign, closeSign] [] payload).2 = []
    · exact .inl ⟨.command taken all, all⟩
    · exact .inr (turns.trans (if_neg all))

theorem nameStep_surveys (cs : List Char) : (nameStep settings cs).Surveys cs := by
  unfold nameStep
  split
  · trivial
  · rename_i name rest taken
    obtain ⟨rfl, holds⟩ := takeName_isName taken
    exact .inr (survey_statements_plain fun c member =>
      isPlain_of_not_isStop (not_isStop_of_isNameChar (isNameChar_of_isName holds c member)))

theorem numberStep_surveys (cs : List Char) : (numberStep cs).Surveys cs := by
  unfold numberStep
  split
  · trivial
  · rename_i numeral rest taken
    have plain := takeNumeral_not_isStop taken
    have whole := (takeNumeral_append taken).1
    rw [← whole]
    exact .inr (survey_statements_plain fun c member => isPlain_of_not_isStop (plain c member))

/-- Every step inside a block leaves the survey among the statements, but for the closing mark and for a comment or
a command that is not ended. -/
theorem blockStep_surveys (usual : settings.HasUsualMarks) (openedAt line : Nat) (cs : List Char) :
    (blockStep settings openedAt line cs).Surveys cs := by
  have single : ∀ {c : Char} {rest : List Char}, isPlain c = true →
      survey .statements (c :: rest) = survey .statements rest := fun plain =>
    survey_statements_plain (List.forall_mem_singleton.mpr plain)
  have shape := blockStep_shape settings openedAt line cs
  generalize blockStep settings openedAt line cs = step at shape ⊢
  cases shape with
  | ended => trivial
  | close rest =>
      rw [usual.closeMark_toList]
      rfl
  | blank rest space =>
      have blank : ∀ d ∈ rest.takeWhile isBlockSpace, isPlain d = true := fun d member =>
        isPlain_of (List.mem_takeWhile_imp member) (by decide)
      have blanks : survey .statements (rest.takeWhile isBlockSpace ++ rest.dropWhile isBlockSpace) = _ :=
        survey_statements_plain blank
      rw [List.takeWhile_append_dropWhile] at blanks
      exact .inr ((single (isPlain_of space (by decide))).trans blanks)
  | lineEnd rest => exact .inr (single (by decide))
  | comment rest =>
      have turns : survey .statements (commentMark :: rest) = survey .comment rest :=
        survey_cons .statements nofun fun _ => ne_closeSign_of_next (by decide)
      rw [survey_comment] at turns
      by_cases all : rest.dropWhile (· ≠ '\n') = []
      · exact .inl ⟨.comment all, all⟩
      · exact .inr (turns.trans (if_neg all))
  | command rest =>
      rw [usual.commandMark_toList]
      exact commandStep_surveys usual rest
  | number => exact numberStep_surveys _
  | name => exact nameStep_surveys _
  | operator rest sign => exact .inr (single (isPlain_of sign (by decide)))
  | mark rest sign => exact .inr (single (isPlain_of sign (by decide)))
  | semicolon rest => exact .inr (single (by decide))
  | stray => trivial

/-- A block that is closed leaves the survey outside of it. -/
theorem survey_scanBlock (usual : settings.HasUsualMarks)
    (scanned : scanBlock settings openedAt line found cs = (tokens, .ok (lineAfter, rest))) :
    survey .statements cs = survey .outside rest := by
  have ended : ∀ {line found}, scanBlock settings openedAt line found [] ≠ (tokens, .ok (lineAfter, rest)) := by
    intro line found closed
    rw [scanBlock_of_fault rfl] at closed
    cases closed
  fun_induction scanBlock settings openedAt line found cs with
  | case1 line found cs left step ih =>
      have surveys := blockStep_surveys usual openedAt line cs
      rw [step] at surveys
      rcases surveys with ⟨_, rfl⟩ | same
      · exact (ended scanned).elim
      · exact same.trans (ih scanned)
  | case2 line found cs lexeme lines left step ih =>
      have surveys := blockStep_surveys usual openedAt line cs
      rw [step] at surveys
      rcases surveys with ⟨_, rfl⟩ | same
      · exact (ended scanned).elim
      · exact same.trans (ih scanned)
  | case3 line found cs left step =>
      have surveys := blockStep_surveys usual openedAt line cs
      rw [step] at surveys
      cases scanned
      exact surveys
  | case4 line found cs fault step => cases scanned

/-! ## Outside of blocks -/

/-- A text without an opening mark is outside of blocks. -/
theorem survey_of_no_block {before outside : List Char}
    (split : splitAtMark ['\x7b', '\x7b'] before cs = (outside, none)) : survey .outside cs = (cs, .outside) := by
  induction cs generalizing before with
  | nil => rfl
  | cons c rest ih =>
      unfold splitAtMark at split
      split at split
      · cases split
      · rename_i other
        rw [survey_outside_cons fun starts => other (List.isPrefixOf_iff_prefix.mpr starts), ih split]

/-- A text with an opening mark is outside of blocks up to there. -/
theorem survey_of_block {before outside inside : List Char}
    (split : splitAtMark ['\x7b', '\x7b'] before cs = (outside, some inside)) :
    ∃ passed, outside = before.reverse ++ passed ∧
      survey .outside cs = (passed ++ (survey .statements inside).1, (survey .statements inside).2) := by
  induction cs generalizing before with
  | nil => cases split
  | cons c rest ih =>
      unfold splitAtMark at split
      split at split
      · rename_i starts
        obtain ⟨tail, whole⟩ := List.isPrefixOf_iff_prefix.mp starts
        cases split
        refine ⟨[], (List.append_nil _).symm, ?_⟩
        rw [← whole]
        rfl
      · rename_i other
        obtain ⟨passed, rfl, same⟩ := ih split
        refine ⟨c :: passed, by simp, ?_⟩
        rw [survey_outside_cons fun starts => other (List.isPrefixOf_iff_prefix.mpr starts), same]
        rfl

end EquationText
