import EquationText.Proofs.Token.Blocks

/-! # Where the tokens of a document stand

The tokens of a document stand in it one after another, each on the line that is counted from the line ends
before its first character (`EquationText.scan_layout`); between the tokens of a block there are only blanks
and comments. When a scan fails, it does so at the first place that no token stands at, and the fault has the
line of that place, or of the opening mark of a block that is not closed. A token that neither is literal
text nor ends a statement has the token after it on its own line (`EquationText.Layout.line_eq_of_next`).
-/

namespace EquationText

namespace Lexeme

/-- Whether a token is written with some characters. -/
inductive IsWritten (settings : Settings) : Lexeme → List Char → Prop
  | text (raw : List Char) : IsWritten settings (.text (String.ofList raw)) raw
  | reference {name : List Char} (plain : lineEnds name = 0) :
    IsWritten settings (.reference (String.ofList name)) name
  | ident {name : List Char} (isName : isName name = true) :
    IsWritten settings (.ident (String.ofList name)) name
  | keyword {name : List Char} (isName : isName name = true) :
    IsWritten settings (.keyword (String.ofList name)) name
  | number {numeral rest : List Char} (taken : takeNumeral (numeral ++ rest) = some (numeral, rest)) :
    IsWritten settings (.number (numeralValue numeral)) numeral
  | operator {sign : Char} (isSign : isOperatorSign sign = true) :
    IsWritten settings (.operator sign) [sign]
  | mark {sign : Char} (isSign : isMarkSign sign = true) : IsWritten settings (.mark sign) [sign]
  | semicolon : IsWritten settings .statementEnd [';']
  | lineEnd : IsWritten settings .statementEnd ['\n']
  | blockOpen : IsWritten settings .blockOpen settings.openMark.toList
  | blockClose : IsWritten settings .blockClose settings.closeMark.toList
  | command {name payload : List Char} (isName : isName name = true)
    (plain : ∀ c ∈ payload, c ≠ ';' ∧ c ≠ '\n') :
    IsWritten settings (.command (String.ofList name) (String.ofList (trimBlanks payload)))
      (settings.commandMark.toList ++ (name ++ payload))

/-- Whether a block is open after a token, which may only stand inside of blocks, or outside of them. -/
def turn? : Bool → Lexeme → Option Bool
  | false, text _ | false, reference _ => some false
  | false, blockOpen => some true
  | true, blockClose => some false
  | true, lexeme => if lexeme.isInner then some true else none
  | false, _ => none

/-- Whether what a token is written with has no line end. -/
def isOnOneLine : Lexeme → Bool
  | text _ | statementEnd => false
  | _ => true

end Lexeme

/-- Whether a block is open after some tokens, if they may stand there. -/
def turns? (inside : Bool) (tokens : List Token) : Option Bool :=
  tokens.foldlM (fun inside token => token.lexeme.turn? inside) inside

/-- Whether some tokens stand one after another in the text `passed`, which comes after `before`, and which
`left` comes after. Each token has the line that its first character is on. The two flags tell whether a
block is open before the tokens and after them. -/
inductive Layout (settings : Settings) (left : List Char) :
    Bool → List Char → List Token → Bool → List Char → Prop
  | done (inside : Bool) (before : List Char) : Layout settings left inside before [] inside []
  | blank {before passed : List Char} {tokens : List Token} {last : Bool} {c : Char}
    (space : isBlockSpace c = true) (others : Layout settings left true (before ++ [c]) tokens last passed) :
    Layout settings left true before tokens last (c :: passed)
  | comment {before passed body : List Char} {tokens : List Token} {last : Bool}
    (plain : lineEnds body = 0) (ended : ∀ c ∈ (passed ++ left).head?, c = '\n')
    (others : Layout settings left true (before ++ commentMark :: body) tokens last passed) :
    Layout settings left true before tokens last (commentMark :: (body ++ passed))
  | token {inside next last : Bool} {before passed chars : List Char} {token : Token} {tokens : List Token}
    (turns : token.lexeme.turn? inside = some next) (written : token.lexeme.IsWritten settings chars)
    (nonempty : chars ≠ []) (line : token.line = 1 + lineEnds before)
    (others : Layout settings left next (before ++ chars) tokens last passed) :
    Layout settings left inside before (token :: tokens) last (chars ++ passed)

/-- How the scan of a block fails that was opened on the line `openedAt`, where the rest of it, on the line
`line`, does not start with a token. -/
inductive ScanStops (settings : Settings) (openedAt line : Nat) : List Char → Fault → Prop
  | strayCharacter (c : Char) (rest : List Char) :
    ScanStops settings openedAt line (c :: rest) ((Cause.reading (.strayCharacter c)).onLine line)
  | missingCommandName {rest : List Char} (none : takeName rest = none) :
    ScanStops settings openedAt line (settings.commandMark.toList ++ rest)
      ((Cause.reading .missingCommandName).onLine line)
  | unterminatedBlock :
    ScanStops settings openedAt line [] ((Cause.reading .unterminatedBlock).onLine openedAt)
  | unreadable (left : List Char) :
    ScanStops settings openedAt line left Cause.unreadableCharacter.unplaced

variable {settings : Settings} {left before passed more chars cs : List Char} {inside last next : Bool}
  {tokens others : List Token} {token : Token} {lexeme : Lexeme}

theorem turns?_cons (inside : Bool) (token : Token) (tokens : List Token) :
    turns? inside (token :: tokens) = (token.lexeme.turn? inside).bind (turns? · tokens) := rfl

theorem turns?_append (inside : Bool) (tokens others : List Token) :
    turns? inside (tokens ++ others) = (turns? inside tokens).bind (turns? · others) := List.foldlM_append

theorem Lexeme.turn?_of_isInner (inner : lexeme.isInner = true) : lexeme.turn? true = some true := by
  cases lexeme <;> first | rfl | cases inner

theorem turns?_of_isInner (inner : ∀ token ∈ tokens, token.lexeme.isInner = true) :
    turns? true tokens = some true := by
  induction tokens with
  | nil => rfl
  | cons token tokens ih =>
      obtain ⟨head, others⟩ := List.forall_mem_cons.mp inner
      rw [turns?_cons, Lexeme.turn?_of_isInner head, Option.bind_some, ih others]

/-- A block that is open before some tokens and not after them is closed by one of them. -/
theorem exists_blockClose (turns : turns? true tokens = some false) :
    ∃ token ∈ tokens, token.lexeme = .blockClose := by
  induction tokens with
  | nil => cases turns
  | cons token tokens ih =>
      by_cases close : token.lexeme = .blockClose
      · exact ⟨token, List.mem_cons_self .., close⟩
      · have later : turns? true tokens = some false := by
          rw [turns?_cons] at turns
          cases lexeme : token.lexeme <;> rw [lexeme] at turns close <;>
            first | exact turns | cases turns | exact (close rfl).elim
        obtain ⟨found, member, closes⟩ := ih later
        exact ⟨found, List.mem_cons_of_mem _ member, closes⟩

namespace Layout

/-- Tokens may be followed by those of the text after them. -/
theorem append (first : Layout settings (more ++ left) inside before tokens next passed)
    (second : Layout settings left next (before ++ passed) others last more) :
    Layout settings left inside before (tokens ++ others) last (passed ++ more) := by
  induction first with
  | done inside before => simpa using second
  | blank space _ ih => exact .blank space (ih (by simpa using second))
  | comment plain ended _ ih =>
      rw [List.cons_append, List.append_assoc]
      refine .comment plain ?_ (ih (by simpa using second))
      rwa [List.append_assoc]
  | token turns written nonempty line _ ih =>
      rw [List.cons_append, List.append_assoc]
      exact .token turns written nonempty line (ih (by simpa using second))

end Layout

/-! ## Lines -/

theorem isName_plain {name : List Char} (holds : isName name = true) : lineEnds name = 0 := by
  cases name with
  | nil => rfl
  | cons c rest =>
      simp only [isName, Bool.and_eq_true, List.all_eq_true] at holds
      refine lineEnds_eq_zero fun d member => ?_
      rcases List.mem_cons.mp member with rfl | inside
      · exact isNameStart_ne_lineEnd holds.1
      · rintro rfl
        have char := holds.2 _ inside
        revert char
        decide

/-- With the usual marks a token of one line is written without line ends. -/
theorem Lexeme.IsWritten.plain (usual : settings.HasUsualMarks) (written : lexeme.IsWritten settings chars)
    (single : lexeme.isOnOneLine = true) : lineEnds chars = 0 := by
  cases written with
  | text raw => cases single
  | reference plain => exact plain
  | ident isName => exact isName_plain isName
  | keyword isName => exact isName_plain isName
  | number taken =>
      obtain ⟨passed, same, plain⟩ := takeNumeral_passes taken
      rwa [List.append_cancel_right same]
  | operator isSign =>
      refine lineEnds_eq_zero fun c member => ?_
      rw [List.mem_singleton.mp member]
      rintro rfl
      revert isSign
      decide
  | mark isSign =>
      refine lineEnds_eq_zero fun c member => ?_
      rw [List.mem_singleton.mp member]
      rintro rfl
      revert isSign
      decide
  | semicolon => cases single
  | lineEnd => cases single
  | blockOpen =>
      rw [usual.openMark_toList]
      rfl
  | blockClose =>
      rw [usual.closeMark_toList]
      rfl
  | command isName plain =>
      have payload := lineEnds_eq_zero fun c member => (plain c member).2
      rw [usual.commandMark_toList, lineEnds_append, lineEnds_append, isName_plain isName, payload]
      rfl

theorem isBlockSpace_ne_lineEnd {c : Char} (space : isBlockSpace c = true) : c ≠ '\n' := by
  rintro rfl
  revert space
  decide

namespace Layout

/-- The next token has the line that the text before it ends on. -/
theorem line_head (layout : Layout settings left inside before (token :: tokens) last passed) :
    token.line = 1 + lineEnds before := by
  generalize whole : token :: tokens = all at layout
  induction layout with
  | done => cases whole
  | blank space _ ih =>
      rw [ih whole, lineEnds_append, lineEnds_cons, if_neg (isBlockSpace_ne_lineEnd space)]
      rfl
  | comment plain _ _ ih =>
      rw [ih whole, lineEnds_append, lineEnds_cons, if_neg (by decide), plain, Nat.add_zero]
  | token _ _ _ line _ _ =>
      cases whole
      exact line

/-- The tokens turn from inside of blocks to outside and back as the flags tell. -/
theorem turns (layout : Layout settings left inside before tokens last passed) :
    turns? inside tokens = some last := by
  induction layout with
  | done => rfl
  | blank _ _ ih => exact ih
  | comment _ _ _ ih => exact ih
  | token turned _ _ _ _ ih => rw [turns?_cons, turned, Option.bind_some, ih]

/-- A token of one line and the token after it are on the same line. -/
theorem line_eq_of_next (usual : settings.HasUsualMarks) {earlier later : List Token} {first second : Token}
    (layout : Layout settings left inside before (earlier ++ first :: second :: later) last passed)
    (single : first.lexeme.isOnOneLine = true) : second.line = first.line := by
  generalize whole : earlier ++ first :: second :: later = all at layout
  induction layout generalizing earlier with
  | done => simp at whole
  | blank _ _ ih => exact ih whole
  | comment _ _ _ ih => exact ih whole
  | token _ written _ line rest ih =>
      cases earlier with
      | cons _ earlier =>
          cases whole
          exact ih rfl
      | nil =>
          cases whole
          rw [rest.line_head, line, lineEnds_append, written.plain usual single, Nat.add_zero]

/-- Tokens of one line each that come one after another are all on the line of the first of them. -/
theorem line_eq_of_mem (usual : settings.HasUsualMarks) {earlier later : List Token} {first found : Token}
    (layout : Layout settings left inside before (earlier ++ (first :: tokens ++ later)) last passed)
    (single : ∀ token ∈ first :: tokens, token.lexeme.isOnOneLine = true) (member : found ∈ first :: tokens) :
    found.line = first.line := by
  induction tokens generalizing earlier first with
  | nil => rw [List.mem_singleton.mp member]
  | cons second tokens ih =>
      obtain ⟨head, others⟩ := List.forall_mem_cons.mp single
      have next : second.line = first.line := layout.line_eq_of_next usual head
      rcases List.mem_cons.mp member with rfl | later
      · rfl
      · rw [← next]
        rw [List.cons_append, List.append_cons] at layout
        exact ih layout others later

end Layout

/-! ## Literal text -/

/-- The pieces of a literal text have characters, and those that are references no line end. -/
theorem piecesFrom_plain (previous : Option Char) (pending : List Char) (found : List Piece)
    (cs : List Char) (before : ∀ piece ∈ found, piece.chars ≠ [] ∧ piece.lineEnds = lineEnds piece.chars) :
    ∀ piece ∈ piecesFrom previous pending found cs,
      piece.chars ≠ [] ∧ piece.lineEnds = lineEnds piece.chars := by
  have collected : ∀ (pending : List Char) (found : List Piece),
      (∀ piece ∈ found, piece.chars ≠ [] ∧ piece.lineEnds = lineEnds piece.chars) →
      ∀ piece ∈ collectWords pending found, piece.chars ≠ [] ∧ piece.lineEnds = lineEnds piece.chars := by
    intro pending found before
    unfold collectWords
    split
    · exact before
    · rename_i some
      exact List.forall_mem_cons.mpr ⟨⟨by simpa [Piece.chars] using some, rfl⟩, before⟩
  fun_induction piecesFrom previous pending found cs with
  | case1 previous pending found =>
      exact fun piece member => collected pending found before piece (List.mem_reverse.mp member)
  | case2 previous pending found c rest begins reference ih =>
      obtain ⟨whole, plain⟩ := takeReference_append (Bool.and_eq_true_iff.mp begins).1 rest
      refine ih (List.forall_mem_cons.mpr ⟨⟨?_, plain.symm⟩, collected pending found before⟩)
      exact List.cons_ne_nil _ _
  | case3 previous pending found c rest other ih => exact ih before

/-- The tokens of a literal text stand in it. -/
theorem placeLiteral_layout (settings : Settings) (left before : List Char) (found : List Token)
    (cs : List Char) :
    ∃ literal, (placeLiteral (1 + lineEnds before) found cs).1 = literal.reverse ++ found ∧
      Layout settings left false before literal false cs := by
  have placed : ∀ (pieces : List Piece) (before : List Char) (found : List Token),
      (∀ piece ∈ pieces, piece.chars ≠ [] ∧ piece.lineEnds = lineEnds piece.chars) →
      ∃ literal, (pieces.foldl placePiece (found, 1 + lineEnds before)).1 = literal.reverse ++ found ∧
        Layout settings left false before literal false (pieces.flatMap Piece.chars) := by
    intro pieces
    induction pieces with
    | nil => exact fun before found _ => ⟨[], rfl, .done false before⟩
    | cons piece rest ih =>
        intro before found plain
        obtain ⟨⟨nonempty, counted⟩, later⟩ := List.forall_mem_cons.mp plain
        have first : ∃ lexeme : Lexeme, placePiece (found, 1 + lineEnds before) piece =
              (⟨lexeme, 1 + lineEnds before⟩ :: found, 1 + lineEnds (before ++ piece.chars)) ∧
            lexeme.turn? false = some false ∧ lexeme.IsWritten settings piece.chars := by
          cases piece with
          | words raw =>
              refine ⟨.text (String.ofList raw), ?_, rfl, .text raw⟩
              rw [placePiece, lineEnds_append, Piece.chars, Nat.add_assoc]
          | reference name =>
              have none : lineEnds name = 0 := counted.symm
              refine ⟨.reference (String.ofList name), ?_, rfl, .reference none⟩
              rw [placePiece, lineEnds_append, Piece.chars, none, Nat.add_zero]
        obtain ⟨lexeme, same, turns, written⟩ := first
        obtain ⟨literal, whole, layout⟩ := ih (before ++ piece.chars) (⟨lexeme, 1 + lineEnds before⟩ :: found) later
        refine ⟨⟨lexeme, 1 + lineEnds before⟩ :: literal, ?_, .token turns written nonempty rfl layout⟩
        rw [List.foldl_cons, same, whole]
        simp
  have made := placed (pieces cs) before found (piecesFrom_plain none [] [] cs (by simp))
  rwa [(chars_of_pieces cs).1] at made

/-! ## Blocks -/

/-- The name at the start of a text, and what is left behind it. -/
theorem takeName_isName {name : List Char × List Char} (taken : takeName cs = some name) :
    cs = name.1 ++ name.2 ∧ isName name.1 = true := by
  unfold takeName at taken
  split at taken
  · cases taken
  · rename_i c rest
    split at taken
    · rename_i start
      cases taken
      refine ⟨by simp [List.takeWhile_append_dropWhile], ?_⟩
      simp only [isName, start, Bool.true_and, List.all_eq_true]
      exact fun d member => List.mem_takeWhile_imp member
    · cases taken

/-- A payload is what comes before its end, without semicolons and line ends. -/
theorem takePayload_append (closeMark found cs : List Char) :
    ∃ payload, (takePayload closeMark found cs).1 = found.reverse ++ payload ∧
      cs = payload ++ (takePayload closeMark found cs).2 ∧ ∀ c ∈ payload, c ≠ ';' ∧ c ≠ '\n' := by
  induction cs generalizing found with
  | nil => exact ⟨[], by simp [takePayload], rfl, by simp⟩
  | cons c rest ih =>
      unfold takePayload
      split
      · exact ⟨[], by simp, rfl, by simp⟩
      · rename_i passed
        obtain ⟨payload, whole, same, plain⟩ := ih (c :: found)
        refine ⟨c :: payload, by simpa using whole, congrArg (c :: ·) same,
          List.forall_mem_cons.mpr ⟨?_, plain⟩⟩
        constructor
        · rintro rfl
          simp at passed
        · rintro rfl
          simp at passed

/-- How the next characters of a block are read: as a blank part or a comment, as a token, or not at all. -/
def BlockStep.IsWritten (settings : Settings) (openedAt line : Nat) (cs : List Char) : BlockStep → Prop
  | .skip rest =>
    (∃ blanks, cs = blanks ++ rest ∧ ∀ c ∈ blanks, isBlockSpace c = true) ∨
      ∃ body, cs = commentMark :: (body ++ rest) ∧ lineEnds body = 0 ∧ ∀ c ∈ rest.head?, c = '\n'
  | .token lexeme lines rest =>
    ∃ chars, cs = chars ++ rest ∧ chars ≠ [] ∧ lexeme.IsWritten settings chars ∧
      lexeme.isInner = true ∧ lines = lineEnds chars
  | .close rest => cs = settings.closeMark.toList ++ rest
  | .fault found => ScanStops settings openedAt line cs found

section Steps

variable {openedAt line : Nat}

/-- A command is written with its mark, its name and its payload, whose blanks on both ends do not count. -/
theorem commandStep_isWritten (usual : settings.HasUsualMarks) (cs : List Char) :
    (commandStep settings line cs).IsWritten settings openedAt line
      (settings.commandMark.toList ++ cs) := by
  unfold commandStep
  split
  · rename_i none
    exact ScanStops.missingCommandName none
  · rename_i name rest taken
    obtain ⟨rfl, isName⟩ := takeName_isName taken
    obtain ⟨payload, whole, same, plain⟩ := takePayload_append settings.closeMark.toList [] rest
    rw [List.reverse_nil, List.nil_append] at whole
    have written : (Lexeme.command (String.ofList name) (String.ofList (trimBlanks payload))).IsWritten
        settings (settings.commandMark.toList ++ (name ++ payload)) := .command isName plain
    simp only [whole]
    refine ⟨_, ?_, by simp [usual.commandMark_toList], written, rfl, (written.plain usual rfl).symm⟩
    simp only [List.append_assoc, ← same]

/-- A name is written as it is, also the word for an unnamed unknown. -/
theorem nameStep_isWritten (cs : List Char) :
    (nameStep settings cs).IsWritten settings openedAt line cs := by
  unfold nameStep
  split
  · exact ScanStops.unreadable cs
  · rename_i name rest taken
    obtain ⟨rfl, isName⟩ := takeName_isName taken
    have nonempty : name ≠ [] := by
      rintro rfl
      cases isName
    simp only
    split
    · exact ⟨name, rfl, nonempty, .keyword isName, rfl, (isName_plain isName).symm⟩
    · exact ⟨name, rfl, nonempty, .ident isName, rfl, (isName_plain isName).symm⟩

theorem numberStep_isWritten (usual : settings.HasUsualMarks) (cs : List Char) :
    (numberStep cs).IsWritten settings openedAt line cs := by
  unfold numberStep
  split
  · exact ScanStops.unreadable cs
  · rename_i numeral rest taken
    obtain ⟨whole, nonempty⟩ := takeNumeral_append taken
    have written : (Lexeme.number (numeralValue numeral)).IsWritten settings numeral :=
      .number (by rw [whole, taken])
    exact ⟨numeral, whole.symm, nonempty, written, rfl, (written.plain usual rfl).symm⟩

/-- Every step inside a block reads the start of the text. -/
theorem blockStep_isWritten (usual : settings.HasUsualMarks) (openedAt line : Nat) (cs : List Char) :
    (blockStep settings openedAt line cs).IsWritten settings openedAt line cs := by
  have shape := blockStep_shape settings openedAt line cs
  have single : ∀ {lexeme : Lexeme} {c : Char} {rest : List Char}, lexeme.IsWritten settings [c] →
      lexeme.isInner = true → lexeme.isOnOneLine = true →
        (BlockStep.token lexeme 0 rest).IsWritten settings openedAt line (c :: rest) :=
    fun written inner oneLine =>
      ⟨[_], rfl, List.cons_ne_nil _ _, written, inner, (written.plain usual oneLine).symm⟩
  generalize blockStep settings openedAt line cs = step at shape ⊢
  cases shape with
  | ended => exact ScanStops.unterminatedBlock
  | close rest => rfl
  | @blank c rest space =>
      refine Or.inl ⟨c :: rest.takeWhile isBlockSpace, ?_, ?_⟩
      · rw [List.cons_append, List.takeWhile_append_dropWhile]
      · exact List.forall_mem_cons.mpr ⟨space, fun d member => List.mem_takeWhile_imp member⟩
  | lineEnd rest => exact ⟨['\n'], rfl, List.cons_ne_nil _ _, .lineEnd, rfl, rfl⟩
  | comment rest =>
      refine Or.inr ⟨rest.takeWhile (· ≠ '\n'), ?_, ?_, ?_⟩
      · rw [List.takeWhile_append_dropWhile]
      · exact lineEnds_eq_zero fun d member => by simpa using List.mem_takeWhile_imp member
      · intro d head
        have stops := List.head?_dropWhile_not (fun c : Char => decide (c ≠ '\n')) rest
        rw [Option.mem_def.mp head] at stops
        simpa using stops
  | command rest => exact commandStep_isWritten usual rest
  | number => exact numberStep_isWritten usual _
  | name => exact nameStep_isWritten _
  | operator rest sign => exact single (.operator sign) rfl rfl
  | mark rest sign => exact single (.mark sign) rfl rfl
  | semicolon rest => exact ⟨[';'], rfl, List.cons_ne_nil _ _, .semicolon, rfl, rfl⟩
  | stray c rest => exact ScanStops.strayCharacter c rest

end Steps

/-- How the scan of a block ends that was opened on the line `openedAt`, from after the text `before`: with
the closing mark and what is left after it, or where no token stands. -/
inductive BlockEnds (settings : Settings) (openedAt : Nat) (before : List Char) :
    List Token → List Char → Except Fault (Nat × List Char) → Prop
  | closed {tokens : List Token} {passed left : List Char}
    (layout : Layout settings left true before tokens false passed) :
    BlockEnds settings openedAt before tokens (passed ++ left) (.ok (1 + lineEnds (before ++ passed), left))
  | stopped {tokens : List Token} {passed left : List Char} {fault : Fault}
    (layout : Layout settings left true before tokens true passed)
    (inner : ∀ token ∈ tokens, token.lexeme.isInner = true)
    (stops : ScanStops settings openedAt (1 + lineEnds (before ++ passed)) left fault) :
    BlockEnds settings openedAt before tokens (passed ++ left) (.error fault)

/-- A block may have more of its tokens before it. -/
theorem BlockEnds.prepend {openedAt : Nat} {ending : Except Fault (Nat × List Char)}
    (first : Layout settings cs true before tokens true chars)
    (inner : ∀ token ∈ tokens, token.lexeme.isInner = true)
    (ends : BlockEnds settings openedAt (before ++ chars) others cs ending) :
    BlockEnds settings openedAt before (tokens ++ others) (chars ++ cs) ending := by
  cases ends with
  | closed layout =>
      rw [← List.append_assoc, List.append_assoc before]
      exact .closed (first.append layout)
  | stopped layout othersInner stops =>
      rw [← List.append_assoc]
      rw [List.append_assoc before] at stops
      exact .stopped (first.append layout) (List.forall_mem_append.mpr ⟨inner, othersInner⟩) stops

theorem Layout.of_blanks {blanks : List Char} (space : ∀ c ∈ blanks, isBlockSpace c = true)
    (before : List Char) : Layout settings left true before [] true blanks := by
  induction blanks generalizing before with
  | nil => exact .done true before
  | cons c rest ih =>
      obtain ⟨head, others⟩ := List.forall_mem_cons.mp space
      exact .blank head (ih others (before ++ [c]))

/-- The tokens of a block stand in it, up to its closing mark or to where the scan stops. -/
theorem scanBlock_layout (usual : settings.HasUsualMarks) (openedAt : Nat) (before : List Char)
    (found : List Token) (cs : List Char) :
    ∃ new, (scanBlock settings openedAt (1 + lineEnds before) found cs).1 = new.reverse ++ found ∧
      BlockEnds settings openedAt before new cs
        (scanBlock settings openedAt (1 + lineEnds before) found cs).2 := by
  generalize here : 1 + lineEnds before = line
  fun_induction scanBlock settings openedAt line found cs generalizing before with
  | case1 line found cs rest step ih =>
      have written := blockStep_isWritten usual openedAt line cs
      rw [step] at written
      rcases written with ⟨blanks, rfl, space⟩ | ⟨body, rfl, plain, ended⟩
      · have passed : lineEnds blanks = 0 :=
          lineEnds_eq_zero fun c member => isBlockSpace_ne_lineEnd (space c member)
        obtain ⟨new, tokens, ends⟩ := ih (before ++ blanks) (by rw [lineEnds_append, passed, ← here]; rfl)
        exact ⟨new, tokens, ends.prepend (.of_blanks space before) (List.forall_mem_nil _)⟩
      · have passed : lineEnds (commentMark :: body) = 0 := by
          rw [lineEnds_cons, if_neg (by decide), plain]
        obtain ⟨new, tokens, ends⟩ := ih (before ++ commentMark :: body)
          (by rw [lineEnds_append, passed, ← here]; rfl)
        have comment : Layout settings rest true before [] true (commentMark :: (body ++ [])) :=
          .comment plain ended (.done true _)
        rw [List.append_nil] at comment
        exact ⟨new, tokens, ends.prepend comment (List.forall_mem_nil _)⟩
  | case2 line found cs lexeme lines rest step ih =>
      have written := blockStep_isWritten usual openedAt line cs
      rw [step] at written
      obtain ⟨chars, rfl, nonempty, isWritten, inner, rfl⟩ := written
      obtain ⟨new, tokens, ends⟩ := ih (before ++ chars) (by rw [lineEnds_append, ← here, Nat.add_assoc])
      have token : Layout settings rest true before [⟨lexeme, line⟩] true (chars ++ []) :=
        .token (Lexeme.turn?_of_isInner inner) isWritten nonempty here.symm (.done true _)
      rw [List.append_nil] at token
      refine ⟨⟨lexeme, line⟩ :: new, ?_, ends.prepend token (List.forall_mem_singleton.mpr inner)⟩
      rw [tokens, List.reverse_cons, List.append_assoc]
      rfl
  | case3 line found cs rest step =>
      have written := blockStep_isWritten usual openedAt line cs
      rw [step] at written
      obtain rfl : cs = settings.closeMark.toList ++ rest := written
      have close : Lexeme.blockClose.IsWritten settings settings.closeMark.toList := .blockClose
      have plain := close.plain usual rfl
      have nonempty : settings.closeMark.toList ≠ [] := by
        rw [usual.closeMark_toList]
        exact List.cons_ne_nil _ _
      have token : Layout settings rest true before [⟨.blockClose, line⟩] false
          (settings.closeMark.toList ++ []) := .token rfl close nonempty here.symm (.done false _)
      rw [List.append_nil] at token
      refine ⟨[⟨.blockClose, line⟩], rfl, ?_⟩
      have ends : BlockEnds settings openedAt before _ _ _ := .closed token
      rwa [lineEnds_append, plain, Nat.add_zero, here] at ends
  | case4 line found cs fault step =>
      have written := blockStep_isWritten usual openedAt line cs
      rw [step, ← here] at written
      have stops : ScanStops settings openedAt (1 + lineEnds (before ++ [])) cs fault := by
        rw [List.append_nil]
        exact written
      exact ⟨[], rfl, .stopped (.done true before) (List.forall_mem_nil _) stops⟩

/-! ## Documents -/

/-- How the scan of a document ends, from after the text `before` on: after the last token, on the line that
the document ends on, or within a block that is open, where no token stands. -/
inductive ScanEnds (settings : Settings) (before : List Char) :
    List Token → List Char → Except Fault Nat → Prop
  | finished {tokens : List Token} {cs : List Char} (layout : Layout settings [] false before tokens false cs) :
    ScanEnds settings before tokens cs (.ok (1 + lineEnds (before ++ cs)))
  | stopped {earlier inner : List Token} {opener : Token} {passed left : List Char} {fault : Fault}
    (layout : Layout settings left false before (earlier ++ opener :: inner) true passed)
    (opens : opener.lexeme = .blockOpen) (inside : ∀ token ∈ inner, token.lexeme.isInner = true)
    (stops : ScanStops settings opener.line (1 + lineEnds (before ++ passed)) left fault) :
    ScanEnds settings before (earlier ++ opener :: inner) (passed ++ left) (.error fault)

theorem ScanEnds.layout {ending : Except Fault Nat} (ends : ScanEnds settings before tokens cs ending) :
    ∃ left last passed, Layout settings left false before tokens last passed := by
  cases ends with
  | finished layout => exact ⟨_, _, _, layout⟩
  | stopped layout _ _ _ => exact ⟨_, _, _, layout⟩

/-- After the tokens of a document no block is open unless the scan stopped. -/
theorem ScanEnds.turns {ending : Except Fault Nat} (ends : ScanEnds settings before tokens cs ending) :
    ∃ last, turns? false tokens = some last ∧ (last = true → ∃ fault, ending = .error fault) := by
  cases ends with
  | finished layout => exact ⟨false, layout.turns, nofun⟩
  | stopped layout _ _ _ => exact ⟨true, layout.turns, fun _ => ⟨_, rfl⟩⟩

/-- A document may have more before it. -/
theorem ScanEnds.prepend {ending : Except Fault Nat} (first : Layout settings cs false before tokens false chars)
    (ends : ScanEnds settings (before ++ chars) others cs ending) :
    ScanEnds settings before (tokens ++ others) (chars ++ cs) ending := by
  cases ends with
  | finished layout =>
      rw [List.append_assoc before]
      rw [← List.append_nil cs] at first
      exact .finished (first.append layout)
  | stopped layout opens inside stops =>
      have whole := first.append layout
      rw [← List.append_assoc] at whole
      rw [List.append_assoc before] at stops
      rw [← List.append_assoc, ← List.append_assoc]
      exact .stopped whole opens inside stops

/-- The tokens of a block stand in it, and those of the literal text before it, from the text `before` on. -/
theorem scanOpened_layout (usual : settings.HasUsualMarks) (before : List Char) (found : List Token)
    (outside inside : List Char) :
    ∃ literal opener new, opener.lexeme = .blockOpen ∧
      (scanOpened settings (1 + lineEnds before) found outside inside).1 =
        (literal ++ opener :: new).reverse ++ found ∧
      Layout settings inside false before (literal ++ [opener]) true (outside ++ settings.openMark.toList) ∧
      BlockEnds settings opener.line (before ++ (outside ++ settings.openMark.toList)) new inside
        (scanOpened settings (1 + lineEnds before) found outside inside).2 := by
  have mark := usual.openMark_toList
  obtain ⟨literal, placed, layout⟩ :=
    placeLiteral_layout settings (settings.openMark.toList ++ inside) before found outside
  let opener : Token := ⟨.blockOpen, 1 + lineEnds (before ++ outside)⟩
  have opens : Layout settings inside false (before ++ outside) [opener] true
      (settings.openMark.toList ++ []) := .token rfl .blockOpen (by simp [mark]) rfl (.done true _)
  rw [List.append_nil] at opens
  have line : 1 + lineEnds (before ++ (outside ++ settings.openMark.toList)) = opener.line := by
    rw [← List.append_assoc, lineEnds_append, mark]
    rfl
  obtain ⟨new, tokens, ends⟩ := scanBlock_layout usual opener.line
    (before ++ (outside ++ settings.openMark.toList)) (opener :: (literal.reverse ++ found)) inside
  have scanned : scanOpened settings (1 + lineEnds before) found outside inside =
      scanBlock settings opener.line opener.line (opener :: (literal.reverse ++ found)) inside := by
    simp only [scanOpened, placed, opener, lineEnds_append, Nat.add_assoc]
  rw [line, ← scanned] at tokens ends
  refine ⟨literal, opener, new, rfl, ?_, layout.append opens, ends⟩
  rw [tokens]
  simp

/-- The tokens of a document stand in it, from the text `before` on. -/
theorem scanDocument_layout (usual : settings.HasUsualMarks) (before : List Char) (found : List Token)
    (cs : List Char) :
    ∃ new, (scanDocument settings (1 + lineEnds before) found cs).tokens = found.reverse ++ new ∧
      ScanEnds settings before new cs (scanDocument settings (1 + lineEnds before) found cs).ending := by
  induction size : cs.length using Nat.strong_induction_on generalizing before found cs with
  | _ size ih =>
  subst size
  have nonempty := openMark_append_ne_nil usual
  have shape := documentShape usual (1 + lineEnds before) found cs
  cases shape with
  | literal split =>
      by_cases empty : cs = []
      · subst empty
        rw [scanDocument_nil]
        refine ⟨[], by simp, ?_⟩
        have ends : ScanEnds settings before _ _ _ := .finished (.done false before)
        rwa [List.append_nil] at ends
      · obtain ⟨literal, placed, layout⟩ := placeLiteral_layout settings [] before found cs
        rw [scanDocument_of_no_block empty split, placed, Nat.add_assoc, ← lineEnds_append]
        exact ⟨literal, by simp, .finished layout⟩
  | @cutOff outside inside tokens fault alone split block =>
      obtain ⟨literal, opener, new, opens, whole, layout, ends⟩ :=
        scanOpened_layout usual before found outside inside
      rw [scanDocument_of_fault (nonempty outside inside) split block]
      rw [block] at whole ends
      refine ⟨literal ++ opener :: new, by simp [show tokens = _ from whole], ?_⟩
      cases ends with
      | stopped inner allInner stops =>
          have tokens := layout.append inner
          rw [List.append_assoc, List.singleton_append] at tokens
          rw [List.append_assoc before] at stops
          rw [← List.append_assoc (outside ++ _)]
          exact .stopped tokens opens allInner stops
  | @closed outside inner rest tokens alone split block =>
      obtain ⟨literal, opener, new, opens, whole, layout, ends⟩ :=
        scanOpened_layout usual before found outside (inner ++ rest)
      have shorter := length_lt_of_closed usual outside inner rest
      have onward := fun before => ih rest.length shorter before tokens rest rfl
      rw [scanDocument_of_block (nonempty outside (inner ++ rest)) (split rest) (block rest) shorter]
      rw [block rest] at whole ends
      generalize 1 + lineEnds before + lineEnds outside + lineEnds inner = line at ends ⊢
      generalize inner ++ rest = inside at layout ends ⊢
      cases ends with
      | closed block =>
          have first := layout.append block
          rw [List.append_assoc before]
          obtain ⟨later, others, ends⟩ := onward (before ++ _)
          refine ⟨literal ++ [opener] ++ new ++ later, ?_, ?_⟩
          · rw [others, show tokens = _ from whole]
            simp
          · rw [← List.append_assoc (outside ++ _)]
            exact ends.prepend first

/-- The tokens of a document stand in it one after another, each on the line that is counted from the line
ends before it. -/
theorem scan_layout (usual : settings.HasUsualMarks) (text : String) :
    ScanEnds settings [] (scan settings text).tokens text.toList (scan settings text).ending := by
  obtain ⟨tokens, whole, ends⟩ := scanDocument_layout usual [] [] text.toList
  rw [List.reverse_nil, List.nil_append] at whole
  rw [scan, show (1 : Nat) = 1 + lineEnds [] from rfl, whole]
  exact ends

end EquationText
