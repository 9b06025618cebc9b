import EquationText.Proofs.Token.Region

/-! # Comments at the ends of lines

A comment before a line end inside a block changes nothing about the scan of a document, unless the line ends
within a command: there it becomes part of the payload (`EquationText.comment_before_lineEnd`). What a scan does
with a line end or a comment depends only on where it is after the text before
(`EquationText.scanDocument_arrives`).
-/

namespace EquationText

variable {settings : Settings} {openedAt line : Nat} {found : List Token} {c t : Char}
  {rest cs more payload : List Char}

/-! ## Steps before the end of a line -/

/-- Whether no more of a line is read from a character on: it ends the line or starts a comment. -/
def EndsLine (t : Char) : Prop := t = '\n' ∨ t = commentMark

namespace EndsLine

variable (ends : EndsLine t)
include ends

theorem isStop : isStop t = true := by
  rcases ends with rfl | rfl <;> decide

theorem ne_closeSign : t ≠ closeSign := by
  rcases ends with rfl | rfl <;> decide

theorem isBlockSpace_eq_false : isBlockSpace t = false := by
  rcases ends with rfl | rfl <;> decide

theorem isDigitLike_eq_false : isDigitLike t = false := by
  rcases ends with rfl | rfl <;> decide +kernel

end EndsLine

theorem closeMark_prefix_before (other : t ≠ closeSign) (more : List Char) :
    [closeSign, closeSign] <+: c :: (rest ++ t :: more) ↔ [closeSign, closeSign] <+: c :: rest := by
  cases rest with
  | nil => simp [List.cons_prefix_cons, other.symm]
  | cons next tail => simp [List.cons_prefix_cons]

/-- A payload that no character ends goes on with what comes after the text. -/
theorem takePayload_before (other : t ≠ closeSign) (found cs more : List Char) :
    takePayload [closeSign, closeSign] found (cs ++ t :: more) =
      if (takePayload [closeSign, closeSign] found cs).2 = [] then
        takePayload [closeSign, closeSign] (cs.reverse ++ found) (t :: more)
      else ((takePayload [closeSign, closeSign] found cs).1,
        (takePayload [closeSign, closeSign] found cs).2 ++ t :: more) := by
  induction cs generalizing found with
  | nil => rfl
  | cons c rest ih =>
      by_cases stops : (c = ';' ∨ c = '\n') ∨ [closeSign, closeSign] <+: c :: rest
      · have stopsBefore := stops.imp_right (closeMark_prefix_before other more).mpr
        rw [takePayload_of_stop stops, List.cons_append, takePayload_of_stop stopsBefore,
          if_neg (List.cons_ne_nil _ _)]
      · have goesOn := mt (Or.imp_right (closeMark_prefix_before other more).mp) stops
        rw [takePayload_of_no_stop stops, List.cons_append, takePayload_of_no_stop goesOn, ih, List.reverse_cons,
          List.append_assoc]
        rfl

/-- A step that does not go to the end of the text does not depend on how the line goes on. -/
theorem blockStep_before (usual : settings.HasUsualMarks) (ends : EndsLine t) (ended : ¬ IsUnended (c :: rest))
    (more : List Char) :
    blockStep settings openedAt line (c :: rest ++ t :: more) =
      (blockStep settings openedAt line (c :: rest)).followedBy (t :: more) := by
  refine LooksAlike.blockStep_eq ⟨?_, ?_, fun comment => ?_, fun command => ?_, ?_, ?_, ?_⟩ usual
  · rw [Bool.eq_iff_iff, List.isPrefixOf_iff_prefix, List.isPrefixOf_iff_prefix]
    exact closeMark_prefix_before ends.ne_closeSign more
  · exact dropWhile_before more ends.isBlockSpace_eq_false
  · subst comment
    have some : rest.dropWhile (· ≠ '\n') ≠ [] := fun all => ended (.comment all)
    rw [List.dropWhile_append, if_neg (by simpa using some)]
  · subst command
    unfold commandStep
    rw [takeName_before more ends.isStop]
    cases taken : takeName rest with
    | none => rfl
    | some name =>
        have some : (takePayload [closeSign, closeSign] [] name.2).2 ≠ [] := fun all =>
          ended (.command taken all)
        simp only [Option.map_some, usual.closeMark_toList, takePayload_before ends.ne_closeSign, if_neg some]
        rfl
  · exact head?_any_before more ends.isDigitLike_eq_false
  · exact numberStep_before more ends.isStop
  · exact nameStep_before more ends.isStop

/-! ## Where a scan is -/

/-- The scan of a document after one of its blocks. -/
def scanAfter (settings : Settings) : List Token × Except Fault (Nat × List Char) → Scan
  | (tokens, .error fault) => ⟨tokens.reverse, .error fault⟩
  | (tokens, .ok (lineAfter, rest)) => scanDocument settings lineAfter tokens rest

/-- Where a scan is after a part of a document that ends inside a block; a command has been read up to a part of
its payload. -/
inductive Arrival
  | failed (tokens : List Token) (fault : Fault)
  | statements (openedAt line : Nat) (found : List Token)
  | comment (openedAt line : Nat) (found : List Token)
  | command (openedAt line : Nat) (found : List Token) (name payload : List Char)

namespace Arrival

/-- The scan of the document that goes on with a text. -/
def resume (settings : Settings) (more : List Char) : Arrival → Scan
  | failed tokens fault => ⟨tokens, .error fault⟩
  | statements openedAt line found => scanAfter settings (scanBlock settings openedAt line found more)
  | comment openedAt line found =>
      scanAfter settings (scanBlock settings openedAt line found (more.dropWhile (· ≠ '\n')))
  | command openedAt line found name payload =>
      let taken := takePayload [closeSign, closeSign] payload.reverse more
      let token : Token := ⟨.command (String.ofList name) (String.ofList (trimBlanks taken.1)), line⟩
      scanAfter settings (scanBlock settings openedAt line (token :: found) taken.2)

/-- Whether the scan is in a region, if it has not failed. -/
def IsIn (region : Region) : Arrival → Prop
  | failed _ _ => True
  | statements _ _ _ => region = .statements
  | comment _ _ _ => region = .comment
  | command _ _ _ _ _ => region = .command

end Arrival

/-- Whether a scan that goes on with a text is in a region, and does with an end of the line what an arrival
there does. -/
def Arrives (settings : Settings) (region : Region) (goOn : List Char → Scan) : Prop :=
  ∃ arrival : Arrival, arrival.IsIn region ∧
    ∀ t more, EndsLine t → goOn (t :: more) = arrival.resume settings (t :: more)

theorem Arrives.of_eq {region : Region} {goOn other : List Char → Scan} (arrives : Arrives settings region other)
    (same : ∀ t more, EndsLine t → goOn (t :: more) = other (t :: more)) : Arrives settings region goOn := by
  obtain ⟨arrival, isIn, resumes⟩ := arrives
  exact ⟨arrival, isIn, fun t more ends => (same t more ends).trans (resumes t more ends)⟩

section Arrive

variable (usual : settings.HasUsualMarks)
include usual

/-- A comment or a command to the end of the text goes on with the line. -/
theorem scanBlock_of_unended (unended : IsUnended cs) :
    Arrives settings (survey .statements cs).2 fun more =>
      scanAfter settings (scanBlock settings openedAt line found (cs ++ more)) := by
  cases unended with
  | @comment body all =>
      have turns : survey .statements (commentMark :: body) = survey .comment body :=
        survey_cons .statements nofun fun _ => ne_closeSign_of_next (by decide)
      refine ⟨.comment openedAt line found, ?_, fun t more _ => ?_⟩
      · rw [turns, survey_comment, if_pos all]
        rfl
      · simp only [List.cons_append, scanBlock_of_skip (blockStep_comment usual _), List.dropWhile_append, all]
        rfl
  | @command rest payload name taken all =>
      obtain ⟨whole, holds⟩ := takeName_isName taken
      have turns : survey .statements ('@' :: rest) = survey .command payload := by
        rw [survey_cons .statements nofun fun _ => ne_closeSign_of_next (by decide), whole]
        exact survey_command_name holds
      refine ⟨.command openedAt line found name payload, ?_, fun t more ends => ?_⟩
      · rw [turns, survey_command [], if_pos all]
        rfl
      · have step : blockStep settings openedAt line ('@' :: (rest ++ t :: more)) =
            commandStep settings line (rest ++ t :: more) := by
          simp [blockStep, charStep, usual.closeMark_toList, usual.commandMark_toList, List.isPrefixOf,
            commentMark, closeSign, isBlockSpace]
        rw [commandStep, takeName_before more ends.isStop, taken, usual.closeMark_toList] at step
        simp only [Option.map_some, takePayload_before ends.ne_closeSign, if_pos all, List.append_nil] at step
        exact congrArg (scanAfter settings) (scanBlock_of_token step)

/-- A step that stays inside the block, and does not go to the end of the text, keeps to the survey and does not
depend on how the line goes on. -/
theorem blockStep_of_ended {step : BlockStep} (ended : ¬ IsUnended cs)
    (same : blockStep settings openedAt line cs = step) (inside : step.inside? = some rest) :
    survey .statements rest = survey .statements cs ∧ ∀ t more, EndsLine t →
      blockStep settings openedAt line (cs ++ t :: more) = step.followedBy (t :: more) := by
  constructor
  · have surveys := blockStep_surveys usual openedAt line cs
    rw [same] at surveys
    cases step with
    | skip left =>
        cases inside
        exact (surveys.resolve_left fun unended => ended unended.1).symm
    | token lexeme lines left =>
        cases inside
        exact (surveys.resolve_left fun unended => ended unended.1).symm
    | close left => cases inside
    | fault found => cases inside
  · intro t more ends
    cases cs with
    | nil =>
        rw [← same] at inside
        cases inside
    | cons c rest => rw [blockStep_before usual ends ended more, same]

/-- A block that is not closed in a text leaves the scan in the region that the survey gives. -/
theorem scanBlock_arrives (openedAt line : Nat) (found : List Token) (cs : List Char) :
    (∃ tokens lineAfter rest, scanBlock settings openedAt line found cs = (tokens, .ok (lineAfter, rest))) ∨
      Arrives settings (survey .statements cs).2 fun more =>
        scanAfter settings (scanBlock settings openedAt line found (cs ++ more)) := by
  fun_induction scanBlock settings openedAt line found cs with
  | case1 line found cs rest step ih =>
      by_cases unended : IsUnended cs
      · exact .inr (scanBlock_of_unended usual unended)
      obtain ⟨surveyed, before⟩ := blockStep_of_ended usual unended step rfl
      rw [surveyed] at ih
      exact ih.imp_right fun arrives => arrives.of_eq fun t more ends =>
        congrArg (scanAfter settings) (scanBlock_of_skip (before t more ends))
  | case2 line found cs lexeme lines rest step ih =>
      by_cases unended : IsUnended cs
      · exact .inr (scanBlock_of_unended usual unended)
      obtain ⟨surveyed, before⟩ := blockStep_of_ended usual unended step rfl
      rw [surveyed] at ih
      exact ih.imp_right fun arrives => arrives.of_eq fun t more ends =>
        congrArg (scanAfter settings) (scanBlock_of_token (before t more ends))
  | case3 line found cs rest step => exact .inl ⟨_, _, _, rfl⟩
  | case4 line found cs fault step =>
      refine .inr ?_
      by_cases unended : IsUnended cs
      · exact scanBlock_of_unended usual unended
      cases cs with
      | nil => exact ⟨.statements openedAt line found, rfl, fun t more _ => rfl⟩
      | cons c rest =>
          refine ⟨.failed found.reverse fault, trivial, fun t more ends => ?_⟩
          have before : blockStep settings openedAt line (c :: rest ++ t :: more) = _ :=
            blockStep_before usual ends unended more
          rw [step] at before
          exact congrArg (scanAfter settings) (scanBlock_of_fault before)

theorem scanDocument_of_split {outside inside : List Char} (line : Nat) (found : List Token)
    (split : splitAtMark settings.openMark.toList [] cs = (outside, some inside)) :
    scanDocument settings line found cs =
      scanAfter settings (scanOpened settings line found outside inside) := by
  obtain ⟨passed, same, rfl, _, _⟩ := splitAtMark_some split usual.openMark_ne_nil
  rw [List.reverse_nil, List.nil_append] at same
  subst same
  have some := openMark_append_ne_nil usual outside inside
  rcases block : scanOpened settings line found outside inside with ⟨tokens, fault | ⟨lineAfter, rest⟩⟩
  · exact scanDocument_of_fault some split block
  · obtain ⟨inner, rfl, _⟩ := scanBlock_closed usual block
    exact scanDocument_of_block some split block (length_lt_of_closed usual outside inner rest)

/-- A scan that is inside a block after a part of a document goes on from there, in the region that the survey
gives, whatever ends the line. -/
theorem scanDocument_arrives (line : Nat) (found : List Token) (cs : List Char)
    (inside : (survey .outside cs).2 ≠ .outside) :
    Arrives settings (survey .outside cs).2 fun more => scanDocument settings line found (cs ++ more) := by
  induction size : cs.length using Nat.strong_induction_on generalizing line found cs with
  | _ size ih =>
  subst size
  rcases split : splitAtMark settings.openMark.toList [] cs with ⟨outside, _ | within⟩
  · -- Without an opening mark the survey stays outside.
    rw [usual.openMark_toList] at split
    have whole := splitAtMark_none split
    rw [survey_of_no_block (whole ▸ split)] at inside
    exact (inside rfl).elim
  obtain ⟨passed, _, rfl, _, replaced⟩ := splitAtMark_some split usual.openMark_ne_nil
  obtain ⟨_, _, surveyed⟩ := survey_of_block (usual.openMark_toList ▸ split)
  rw [← usual.openMark_toList] at surveyed
  rw [surveyed] at inside ⊢
  have resumed : ∀ more,
      scanDocument settings line found (passed ++ settings.openMark.toList ++ within ++ more) =
        scanAfter settings (scanOpened settings line found outside (within ++ more)) := by
    intro more
    rw [List.append_assoc]
    exact scanDocument_of_split usual line found (replaced (within ++ more))
  simp only [resumed]
  rcases scanBlock_arrives usual (line + lineEnds outside) (line + lineEnds outside)
      (⟨.blockOpen, line + lineEnds outside⟩ :: (placeLiteral line found outside).1) within with
    ⟨tokens, lineAfter, rest, closed⟩ | arrives
  · -- A block that is closed leaves the scan outside, with less text before it.
    obtain ⟨inner, rfl, _, _, other⟩ := scanBlock_closed usual closed
    rw [survey_scanBlock usual closed] at inside ⊢
    have shorter := length_lt_of_closed usual passed inner rest
    refine (ih rest.length shorter lineAfter tokens rest inside rfl).of_eq fun t more _ => ?_
    rw [scanOpened, List.append_assoc, other]
    rfl
  · exact arrives

end Arrive

/-! ## Comments -/

/-- Outside of commands a comment before the end of a line leaves the scan as it is. -/
theorem Arrival.resume_comment (usual : settings.HasUsualMarks) {arrival : Arrival} {region : Region}
    {comment : List Char} (isIn : arrival.IsIn region) (other : region ≠ .command) (single : '\n' ∉ comment)
    (after : List Char) :
    arrival.resume settings (commentMark :: (comment ++ '\n' :: after)) =
      arrival.resume settings ('\n' :: after) := by
  have skipped : (comment ++ '\n' :: after).dropWhile (· ≠ '\n') = '\n' :: after := by
    rw [dropWhile_before after (by simp), List.dropWhile_eq_nil_iff.mpr, List.nil_append]
    intro c member
    have different : c ≠ '\n' := fun same => single (same ▸ member)
    simpa using different
  cases arrival with
  | failed tokens fault => rfl
  | statements openedAt line found =>
      rw [resume, resume, scanBlock_of_skip (blockStep_comment usual _), skipped]
  | comment openedAt line found =>
      rw [resume, resume, List.dropWhile_cons_of_pos (by decide), skipped, List.dropWhile_cons_of_neg (by simp)]
  | command openedAt line found name payload => exact (other isIn).elim

/-- The tokens of a document that goes on after a block come after those that were found. -/
theorem exists_scanAfter (usual : settings.HasUsualMarks) (openedAt line : Nat) (found : List Token)
    (cs : List Char) :
    ∃ later,
      (scanAfter settings (scanBlock settings openedAt line found cs)).tokens = found.reverse ++ later := by
  obtain ⟨inner, _, ⟨fault, failed⟩ | ⟨lineAfter, rest, closed⟩⟩ :=
    exists_scanBlock settings openedAt line found cs
  · rw [failed]
    exact ⟨inner.reverse, List.reverse_append⟩
  · rw [closed]
    have further :=
      scanDocument_movedDown usual lineAfter [] rest 0 (⟨.blockClose, lineAfter⟩ :: (inner ++ found))
    rw [List.map_nil, List.nil_append, Nat.add_zero] at further
    rw [scanAfter, further, List.reverse_cons, List.reverse_append, List.append_assoc, List.append_assoc]
    exact ⟨_, rfl⟩

/-- Trimming takes away nothing but blank characters. -/
theorem count_trimBlanks (cs : List Char) (other : isBlank c = false) :
    (trimBlanks cs).count c = cs.count c := by
  have dropped : ∀ cs : List Char, (cs.dropWhile isBlank).count c = cs.count c := by
    intro cs
    induction cs with
    | nil => rfl
    | cons first rest ih =>
        rw [List.dropWhile_cons]
        split
        · rename_i blank
          have different : first ≠ c := by
            intro same
            rw [same, other] at blank
            cases blank
          rw [ih, List.count_cons_of_ne different]
        · rfl
  rw [trimBlanks, List.count_reverse, dropped, List.count_reverse, dropped]

/-- A command takes a comment before the end of its line into its payload. -/
theorem Arrival.resume_command (usual : settings.HasUsualMarks) (openedAt line : Nat) (found : List Token)
    (name payload comment after : List Char) :
    ∃ (read other : String) (later others : List Token), other ≠ read ∧
      ((command openedAt line found name payload).resume settings ('\n' :: after)).tokens =
        found.reverse ++ ⟨.command (String.ofList name) read, line⟩ :: later ∧
      ((command openedAt line found name payload).resume settings
          (commentMark :: (comment ++ '\n' :: after))).tokens =
        found.reverse ++ ⟨.command (String.ofList name) other, line⟩ :: others := by
  have goesOn : ¬ ((commentMark = ';' ∨ commentMark = '\n') ∨
      [closeSign, closeSign] <+: commentMark :: (comment ++ '\n' :: after)) :=
    not_or.mpr ⟨by decide, ne_closeSign_of_next (by decide)⟩
  have stopped : takePayload [closeSign, closeSign] payload.reverse ('\n' :: after) =
      (payload, '\n' :: after) := by
    rw [takePayload_of_stop (.inl (.inr rfl)), List.reverse_reverse]
  obtain ⟨taken, grown, _⟩ :=
    takePayload_append [closeSign, closeSign] (commentMark :: payload.reverse) (comment ++ '\n' :: after)
  rw [List.reverse_cons, List.reverse_reverse, List.append_assoc, List.singleton_append] at grown
  simp only [resume, stopped, takePayload_of_no_stop goesOn, grown]
  let token (payload : List Char) : Token :=
    ⟨.command (String.ofList name) (String.ofList (trimBlanks payload)), line⟩
  obtain ⟨later, first⟩ := exists_scanAfter usual openedAt line (token payload :: found) ('\n' :: after)
  obtain ⟨others, second⟩ := exists_scanAfter usual openedAt line
    (token (payload ++ commentMark :: taken) :: found)
    (takePayload [closeSign, closeSign] (commentMark :: payload.reverse) (comment ++ '\n' :: after)).2
  rw [List.reverse_cons, List.append_assoc] at first second
  refine ⟨_, _, later, others, fun same => ?_, first, second⟩
  -- The comment adds its sign to the payload.
  have counted := congrArg (List.count commentMark) (String.ofList_injective same)
  rw [count_trimBlanks _ (by decide), count_trimBlanks _ (by decide), List.count_append,
    List.count_cons_self] at counted
  omega

/-- **Comments at the ends of lines.** A comment without a line end in it, put before a line end inside a block,
leaves the scan of the document as it is, unless the line ends within a command. There the tokens before the
command stay, and the payload of the command does not. -/
theorem comment_before_lineEnd (usual : settings.HasUsualMarks) (before comment after : String)
    (single : '\n' ∉ comment.toList) (inside : (survey .outside before.toList).2 ≠ .outside) :
    ((survey .outside before.toList).2 ≠ .command →
      scan settings (before ++ "#" ++ comment ++ "\n" ++ after) = scan settings (before ++ "\n" ++ after)) ∧
    ((survey .outside before.toList).2 = .command → ∀ lineAfter,
      (scan settings (before ++ "\n" ++ after)).ending = .ok lineAfter →
        ∃ (earlier later others : List Token) (name payload other : String) (line : Nat), other ≠ payload ∧
          (scan settings (before ++ "\n" ++ after)).tokens = earlier ++ ⟨.command name payload, line⟩ :: later ∧
          (scan settings (before ++ "#" ++ comment ++ "\n" ++ after)).tokens =
            earlier ++ ⟨.command name other, line⟩ :: others) := by
  obtain ⟨arrival, isIn, resumes⟩ := scanDocument_arrives usual 1 [] before.toList inside
  have plain : scan settings (before ++ "\n" ++ after) = arrival.resume settings ('\n' :: after.toList) := by
    rw [← resumes _ _ (.inl rfl), scan]
    simp
  have commented : scan settings (before ++ "#" ++ comment ++ "\n" ++ after) =
      arrival.resume settings (commentMark :: (comment.toList ++ '\n' :: after.toList)) := by
    rw [← resumes _ _ (.inr rfl), scan]
    simp [commentMark]
  rw [plain, commented]
  refine ⟨fun other => arrival.resume_comment usual isIn other single _, fun command lineAfter ok => ?_⟩
  rw [command] at isIn
  cases arrival with
  | failed tokens fault => cases ok
  | statements openedAt line found => cases isIn
  | comment openedAt line found => cases isIn
  | command openedAt line found name payload =>
      obtain ⟨read, other, later, others, different, first, second⟩ :=
        Arrival.resume_command usual openedAt line found name payload comment.toList after.toList
      exact ⟨found.reverse, later, others, _, read, other, line, different, first, second⟩

/-- A comment on the line of an equation changes nothing, and one on the line of a command does. -/
theorem comment_before_lineEnd_both :
    scan {} ("\x7b\x7b x = 1 " ++ "#" ++ " \x7d\x7d; @" ++ "\n" ++ "\x7d\x7d") =
        scan {} ("\x7b\x7b x = 1 " ++ "\n" ++ "\x7d\x7d") ∧
      ∃ (earlier later others : List Token) (name payload other : String) (line : Nat), other ≠ payload ∧
        (scan {} ("\x7b\x7b @digits 3 " ++ "\n" ++ "\x7d\x7d")).tokens =
          earlier ++ ⟨.command name payload, line⟩ :: later ∧
        (scan {} ("\x7b\x7b @digits 3 " ++ "#" ++ " three digits" ++ "\n" ++ "\x7d\x7d")).tokens =
          earlier ++ ⟨.command name other, line⟩ :: others := by
  have usual := Settings.hasUsualMarks_standard
  exact ⟨(comment_before_lineEnd usual "\x7b\x7b x = 1 " " \x7d\x7d; @" "\x7d\x7d" (by decide +kernel)
      (by decide +kernel)).1 (by decide +kernel),
    (comment_before_lineEnd usual "\x7b\x7b @digits 3 " " three digits" "\x7d\x7d" (by decide +kernel)
      (by decide +kernel)).2 (by decide +kernel) 2 (by decide +kernel)⟩

/-- A comment behind a command is not skipped, although the document is scanned to its end without it. -/
theorem comment_changes_command :
    ∃ before comment after : String, '\n' ∉ comment.toList ∧ (survey .outside before.toList).2 ≠ .outside ∧
      (scan {} (before ++ "\n" ++ after)).ending = .ok 2 ∧
      (scan {} (before ++ "#" ++ comment ++ "\n" ++ after)).tokens ≠
        (scan {} (before ++ "\n" ++ after)).tokens :=
  ⟨"\x7b\x7b @digits 3 ", " three digits", "\x7d\x7d", by decide +kernel, by decide +kernel, by decide +kernel,
    by decide +kernel⟩

end EquationText
