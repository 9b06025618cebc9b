import EquationText.Text.Alphabetic
import EquationText.Token
import EquationText.Token.Name
import EquationText.Token.Numeral

/-! # Scanning documents

Scanning splits a document into tokens. Literal text runs up to the next opening mark; a block runs
from there to its closing mark. The loops keep the tokens found so far, the last one first.
-/

namespace EquationText

/-- The number of line ends in a text. -/
def lineEnds (cs : List Char) : Nat := cs.count '\n'

/-- Splits a text at the first occurrence of a mark; `before` holds what was passed, last character
first. The second part is what follows the mark. -/
def splitAtMark (mark : List Char) (before : List Char) : List Char → List Char × Option (List Char)
  | [] => (before.reverse, if mark.isEmpty then some [] else none)
  | c :: rest =>
    if mark.isPrefixOf (c :: rest) then (before.reverse, some ((c :: rest).drop mark.length))
    else splitAtMark mark (c :: before) rest

/-- Puts the token of a piece of literal text in front of tokens, and moves to the line after it. -/
def placePiece (placed : List Token × Nat) : Piece → List Token × Nat
  | .words raw =>
    (⟨.text (String.ofList raw), placed.2⟩ :: placed.1, placed.2 + lineEnds raw)
  | .reference name => (⟨.reference (String.ofList name), placed.2⟩ :: placed.1, placed.2)

/-- Puts the tokens of a literal text in front of tokens, and moves to the line after it. -/
def placeLiteral (line : Nat) (found : List Token) (cs : List Char) : List Token × Nat :=
  (pieces cs).foldl placePiece (found, line)

/-- What starts a comment, which goes to the end of its line. -/
def commentMark : Char := '#'

/-- A blank that separates tokens of a block. -/
def isBlockSpace (c : Char) : Bool := c = ' ' || c = '\t' || c = '\r'

/-- The signs that are arithmetic operators or the equals sign. -/
def isOperatorSign (c : Char) : Bool :=
  c = '+' || c = '-' || c = '*' || c = '/' || c = '^' || c = '='

/-- The signs that group and separate operands. -/
def isMarkSign (c : Char) : Bool := c = '(' || c = ')' || c = '[' || c = ']' || c = ','

/-- The payload of a command, which ends before a semicolon, the end of the line or the closing mark
of the block; `found` holds what was passed, last character first. -/
def takePayload (closeMark : List Char) (found : List Char) : List Char → List Char × List Char
  | [] => (found.reverse, [])
  | c :: rest =>
    if c = ';' || c = '\n' || closeMark.isPrefixOf (c :: rest) then (found.reverse, c :: rest)
    else takePayload closeMark (c :: found) rest

/-- What the next characters of a block are. -/
inductive BlockStep
  /-- Nothing but blanks or a comment. -/
  | skip (rest : List Char)
  /-- A token and the number of line ends in it. -/
  | token (lexeme : Lexeme) (lines : Nat) (rest : List Char)
  /-- The closing mark of the block. -/
  | close (rest : List Char)
  /-- A text that is no token. -/
  | fault (fault : Fault)

/-- The step for a command whose mark has been read. -/
def commandStep (settings : Settings) (line : Nat) (cs : List Char) : BlockStep :=
  match takeName cs with
  | none => .fault ((Cause.reading .missingCommandName).onLine line)
  | some (name, rest) =>
    let payload := takePayload settings.closeMark.toList [] rest
    .token (.command (String.ofList name) (String.ofList (trimBlanks payload.1))) 0 payload.2

/-- The step for a name or the word for an unnamed unknown. -/
def nameStep (settings : Settings) (cs : List Char) : BlockStep :=
  match takeName cs with
  | none => .fault Cause.unreadableCharacter.unplaced
  | some (name, rest) =>
    let word := String.ofList name
    .token (if word = settings.anonymousWord then .keyword word else .ident word) 0 rest

/-- The step for a number. -/
def numberStep (cs : List Char) : BlockStep :=
  match takeNumeral cs with
  | none => .fault Cause.unreadableCharacter.unplaced
  | some (numeral, rest) => .token (.number (numeralValue numeral)) 0 rest

/-- The step at a character of a block and the text after it. -/
def charStep (settings : Settings) (line : Nat) (c : Char) (rest : List Char) : BlockStep :=
  if settings.closeMark.toList.isPrefixOf (c :: rest) then
    .close ((c :: rest).drop settings.closeMark.toList.length)
  else if isBlockSpace c then .skip (rest.dropWhile isBlockSpace)
  else if c = '\n' then .token .statementEnd 1 rest
  else if c = commentMark then .skip (rest.dropWhile (· ≠ '\n'))
  else if settings.commandMark.toList.isPrefixOf (c :: rest) then
    commandStep settings line ((c :: rest).drop settings.commandMark.toList.length)
  else if isDigitLike c || (c = '.' && rest.head?.any isDigitLike) then numberStep (c :: rest)
  else if isAlphabetic c || c = '_' then nameStep settings (c :: rest)
  else if isOperatorSign c then .token (.operator c) 0 rest
  else if isMarkSign c then .token (.mark c) 0 rest
  else if c = ';' then .token .statementEnd 0 rest
  else .fault ((Cause.reading (.strayCharacter c)).onLine line)

/-- The step at the text that is left of a block which was opened on the line `openedAt`. -/
def blockStep (settings : Settings) (openedAt line : Nat) : List Char → BlockStep
  | [] => .fault ((Cause.reading .unterminatedBlock).onLine openedAt)
  | c :: rest => charStep settings line c rest

/-- What is left after a step inside a block. -/
def BlockStep.inside? : BlockStep → Option (List Char)
  | skip rest | token _ _ rest => some rest
  | close _ | fault _ => none

theorem takeName_length_lt {cs : List Char} {name : List Char × List Char}
    (taken : takeName cs = some name) : name.2.length < cs.length := by
  unfold takeName at taken
  split at taken
  · cases taken
  · split at taken
    · cases taken
      exact Nat.lt_succ_of_le (dropWhile_length_le _ _)
    · cases taken

theorem takePayload_length_le (closeMark found cs : List Char) :
    (takePayload closeMark found cs).2.length ≤ cs.length := by
  induction cs generalizing found with
  | nil => simp [takePayload]
  | cons c rest ih =>
    unfold takePayload
    split
    · simp
    · exact Nat.le_succ_of_le (ih _)

theorem commandStep_length_lt {settings : Settings} {line : Nat} {cs rest : List Char}
    (step : (commandStep settings line cs).inside? = some rest) : rest.length < cs.length := by
  unfold commandStep at step
  split at step
  · cases step
  · rename_i name remaining taken
    cases step
    exact Nat.lt_of_le_of_lt (takePayload_length_le _ _ _) (takeName_length_lt taken)

theorem nameStep_length_lt {settings : Settings} {cs rest : List Char}
    (step : (nameStep settings cs).inside? = some rest) : rest.length < cs.length := by
  unfold nameStep at step
  split at step
  · cases step
  · rename_i taken
    cases step
    exact takeName_length_lt taken

theorem numberStep_length_lt {cs rest : List Char}
    (step : (numberStep cs).inside? = some rest) : rest.length < cs.length := by
  unfold numberStep at step
  split at step
  · cases step
  · rename_i taken
    cases step
    exact takeNumeral_length_lt taken

/-- A step at a character that stays inside the block takes at least this character. -/
theorem charStep_length_lt {settings : Settings} {line : Nat} {c : Char} {tail rest : List Char}
    (step : (charStep settings line c tail).inside? = some rest) :
    rest.length < (c :: tail).length := by
  have shorter : ∀ p : Char → Bool, (tail.dropWhile p).length < (c :: tail).length := fun p =>
    Nat.lt_succ_of_le (dropWhile_length_le p tail)
  unfold charStep at step
  repeat' split at step
  · cases step
  · cases step; exact shorter _
  · cases step; simp
  · cases step; exact shorter _
  · refine Nat.lt_of_lt_of_le (commandStep_length_lt step) ?_
    rw [List.length_drop]
    omega
  · exact numberStep_length_lt step
  · exact nameStep_length_lt step
  · cases step; simp
  · cases step; simp
  · cases step; simp
  · cases step

/-- A step that stays inside the block moves on. -/
theorem blockStep_length_lt {settings : Settings} {openedAt line : Nat} {cs rest : List Char}
    (step : (blockStep settings openedAt line cs).inside? = some rest) :
    rest.length < cs.length := by
  cases cs with
  | nil => cases step
  | cons c tail => exact charStep_length_lt step

/-- Scans a block from inside: the tokens up to its closing mark, and then either the line and the
text after the mark or the fault that ended the scan. -/
def scanBlock (settings : Settings) (openedAt line : Nat) (found : List Token) (cs : List Char) :
    List Token × Except Fault (Nat × List Char) :=
  match _step : blockStep settings openedAt line cs with
  | .skip rest => scanBlock settings openedAt line found rest
  | .token lexeme lines rest =>
    scanBlock settings openedAt (line + lines) (⟨lexeme, line⟩ :: found) rest
  | .close rest => (⟨.blockClose, line⟩ :: found, .ok (line, rest))
  | .fault fault => (found, .error fault)
termination_by cs.length
decreasing_by all_goals exact blockStep_length_lt (by rw [_step]; rfl)

/-- Scans a document from outside its blocks. A block that takes nothing from the text, which needs
two empty marks, ends the scan. -/
def scanDocument (settings : Settings) (line : Nat) (found : List Token) (cs : List Char) : Scan :=
  if cs.isEmpty then ⟨found.reverse, .ok line⟩
  else
    let split := splitAtMark settings.openMark.toList [] cs
    let placed := placeLiteral line found split.1
    match split.2 with
    | none => ⟨placed.1.reverse, .ok placed.2⟩
    | some inside =>
      match scanBlock settings placed.2 placed.2 (⟨.blockOpen, placed.2⟩ :: placed.1) inside with
      | (tokens, .error fault) => ⟨tokens.reverse, .error fault⟩
      | (tokens, .ok (lineAfter, rest)) =>
        if rest.length < cs.length then scanDocument settings lineAfter tokens rest
        else ⟨tokens.reverse, .ok lineAfter⟩
termination_by cs.length

/-- The tokens of a document. -/
def scan (settings : Settings) (text : String) : Scan := scanDocument settings 1 [] text.toList

end EquationText
