import EquationText.Proofs.Token.Layout

/-! # Scanning makes progress

The loop that scans a document goes from block to block, and a block takes something from the text only if
one of its marks does. With one mark that is not empty the loop ends, with the scan of the document, whose
tokens are at most two for each character and one more (`EquationText.scan_ends_within`). With two empty
marks it never ends on a text that has a character (`EquationText.not_isScanned_of_empty_marks`).
-/

namespace EquationText

variable {settings : Settings} {openedAt line lineAfter : Nat} {found tokens : List Token}
  {cs rest outside inside : List Char} {fault : Fault}

/-- What the loop over a document gives when it ends. Unlike `scanDocument` it goes on after a block that
took nothing from the text. -/
inductive IsScanned (settings : Settings) : Nat → List Token → List Char → Scan → Prop
  | finished (line : Nat) (found : List Token) :
    IsScanned settings line found [] ⟨found.reverse, .ok line⟩
  | literal {line : Nat} {found : List Token} {cs outside : List Char} (nonempty : cs ≠ [])
    (split : splitAtMark settings.openMark.toList [] cs = (outside, none)) :
    IsScanned settings line found cs ⟨(placeLiteral line found cs).1.reverse, .ok (line + lineEnds cs)⟩
  | stopped {line : Nat} {found tokens : List Token} {cs outside inside : List Char} {fault : Fault}
    (nonempty : cs ≠ []) (split : splitAtMark settings.openMark.toList [] cs = (outside, some inside))
    (block : scanOpened settings line found outside inside = (tokens, .error fault)) :
    IsScanned settings line found cs ⟨tokens.reverse, .error fault⟩
  | block {line lineAfter : Nat} {found tokens : List Token} {cs outside inside rest : List Char}
    {scanned : Scan} (nonempty : cs ≠ [])
    (split : splitAtMark settings.openMark.toList [] cs = (outside, some inside))
    (block : scanOpened settings line found outside inside = (tokens, .ok (lineAfter, rest)))
    (later : IsScanned settings lineAfter tokens rest scanned) : IsScanned settings line found cs scanned

/-- The number of tokens of a scan; the end of the input is one when it is reached. -/
def Scan.size (scanned : Scan) : Nat :=
  scanned.tokens.length + (match scanned.ending with | .ok _ => 1 | .error _ => 0)

/-! ## What a block takes -/

/-- The end of a block takes its closing mark. -/
theorem blockStep_close_length (step : blockStep settings openedAt line cs = .close rest) :
    rest.length + settings.closeMark.toList.length ≤ cs.length := by
  have shape := blockStep_shape settings openedAt line cs
  generalize blockStep settings openedAt line cs = found at shape step
  cases shape with
  | close left =>
      cases step
      rw [List.length_append, Nat.add_comm]
  | command left =>
      unfold commandStep at step
      split at step <;> cases step
  | number =>
      unfold numberStep at step
      split at step <;> cases step
  | name =>
      unfold nameStep at step
      split at step <;> cases step
  | ended | blank | lineEnd | comment | operator | mark | semicolon | stray => cases step

/-- The tokens of a block that is closed: one for each character it takes at most, and its closing mark. -/
theorem scanBlock_ok_length
    (scanned : scanBlock settings openedAt line found cs = (tokens, .ok (lineAfter, rest))) :
    tokens.length + rest.length + settings.closeMark.toList.length ≤ found.length + cs.length + 1 ∧
      rest.length + settings.closeMark.toList.length ≤ cs.length := by
  fun_induction scanBlock settings openedAt line found cs with
  | case1 line found cs left step ih =>
      have shorter : left.length < cs.length := blockStep_length_lt (by rw [step]; rfl)
      obtain ⟨counted, taken⟩ := ih scanned
      omega
  | case2 line found cs lexeme lines left step ih =>
      have shorter : left.length < cs.length := blockStep_length_lt (by rw [step]; rfl)
      obtain ⟨counted, taken⟩ := ih scanned
      rw [List.length_cons] at counted
      omega
  | case3 line found cs left step =>
      have taken := blockStep_close_length step
      cases scanned
      rw [List.length_cons]
      omega
  | case4 line found cs fault step => cases scanned

/-- A block that is not read to its end has at most a token for each of its characters. -/
theorem scanBlock_error_length
    (scanned : scanBlock settings openedAt line found cs = (tokens, .error fault)) :
    tokens.length ≤ found.length + cs.length := by
  fun_induction scanBlock settings openedAt line found cs with
  | case1 line found cs left step ih =>
      have shorter : left.length < cs.length := blockStep_length_lt (by rw [step]; rfl)
      have counted := ih scanned
      omega
  | case2 line found cs lexeme lines left step ih =>
      have shorter : left.length < cs.length := blockStep_length_lt (by rw [step]; rfl)
      have counted := ih scanned
      rw [List.length_cons] at counted
      omega
  | case3 line found cs left step => cases scanned
  | case4 line found cs fault step =>
      cases scanned
      omega

/-! ## What a literal text takes -/

/-- The tokens of a literal text are at most its characters. -/
theorem placeLiteral_length (line : Nat) (found : List Token) (cs : List Char) :
    (placeLiteral line found cs).1.length ≤ found.length + cs.length := by
  have placed : ∀ (pieces : List Piece) (start : List Token × Nat),
      (∀ piece ∈ pieces, piece.chars ≠ [] ∧ piece.lineEnds = lineEnds piece.chars) →
      (pieces.foldl placePiece start).1.length ≤ start.1.length + (pieces.flatMap Piece.chars).length := by
    intro pieces
    induction pieces with
    | nil => exact fun _ _ => Nat.le_refl _
    | cons piece rest ih =>
        intro start plain
        obtain ⟨⟨nonempty, _⟩, later⟩ := List.forall_mem_cons.mp plain
        have positive := List.length_pos_iff.mpr nonempty
        have first : (placePiece start piece).1.length = start.1.length + 1 := by cases piece <;> rfl
        have counted := ih (placePiece start piece) later
        rw [List.foldl_cons, List.flatMap_cons, List.length_append]
        omega
  have counted := placed (pieces cs) (found, line) (piecesFrom_plain none [] [] cs (List.forall_mem_nil _))
  rwa [(chars_of_pieces cs).1] at counted

/-- A text with a mark is what is before the mark, the mark, and what is behind it. -/
theorem splitAtMark_length {mark : List Char} (split : splitAtMark mark [] cs = (outside, some inside)) :
    cs.length = outside.length + mark.length + inside.length := by
  by_cases empty : mark = []
  · subst empty
    cases cs with
    | nil =>
        cases split
        rfl
    | cons c rest =>
        cases split
        simp
  · obtain ⟨passed, rfl, rfl, _⟩ := splitAtMark_some split empty
    simp only [List.length_append]

theorem scanOpened_ok_length
    (split : splitAtMark settings.openMark.toList [] cs = (outside, some inside))
    (block : scanOpened settings line found outside inside = (tokens, .ok (lineAfter, rest))) :
    tokens.length + rest.length + settings.openMark.toList.length + settings.closeMark.toList.length ≤
        found.length + cs.length + 2 ∧
      rest.length + settings.openMark.toList.length + settings.closeMark.toList.length ≤ cs.length := by
  have parts := splitAtMark_length split
  have literal := placeLiteral_length line found outside
  obtain ⟨counted, taken⟩ := scanBlock_ok_length block
  rw [List.length_cons] at counted
  omega

theorem scanOpened_error_length
    (split : splitAtMark settings.openMark.toList [] cs = (outside, some inside))
    (block : scanOpened settings line found outside inside = (tokens, .error fault)) :
    tokens.length ≤ found.length + cs.length + 1 := by
  have parts := splitAtMark_length split
  have literal := placeLiteral_length line found outside
  have counted := scanBlock_error_length block
  rw [List.length_cons] at counted
  omega

/-! ## The loop -/

namespace IsScanned

variable {scanned other : Scan}

/-- The loop has one result at most. -/
theorem unique (first : IsScanned settings line found cs scanned)
    (second : IsScanned settings line found cs other) : scanned = other := by
  induction first with
  | finished line found =>
      cases second with
      | finished => rfl
      | literal nonempty => exact (nonempty rfl).elim
      | stopped nonempty => exact (nonempty rfl).elim
      | block nonempty => exact (nonempty rfl).elim
  | literal nonempty split =>
      cases second with
      | finished => exact (nonempty rfl).elim
      | literal => rfl
      | stopped _ split' => cases split.symm.trans split'
      | block _ split' => cases split.symm.trans split'
  | stopped nonempty split block =>
      cases second with
      | finished => exact (nonempty rfl).elim
      | literal _ split' => cases split.symm.trans split'
      | stopped _ split' block' =>
          cases split.symm.trans split'
          cases block.symm.trans block'
          rfl
      | block _ split' block' =>
          cases split.symm.trans split'
          cases block.symm.trans block'
  | block nonempty split block _ ih =>
      cases second with
      | finished => exact (nonempty rfl).elim
      | literal _ split' => cases split.symm.trans split'
      | stopped _ split' block' =>
          cases split.symm.trans split'
          cases block.symm.trans block'
      | block _ split' block' later =>
          cases split.symm.trans split'
          cases block.symm.trans block'
          exact ih later

end IsScanned

section Marked

variable (marked : settings.openMark.toList ≠ [] ∨ settings.closeMark.toList ≠ [])
include marked

theorem marks_length_pos :
    0 < settings.openMark.toList.length + settings.closeMark.toList.length := by
  rcases marked with some | some
  · exact Nat.add_pos_left (List.length_pos_iff.mpr some) _
  · exact Nat.add_pos_right _ (List.length_pos_iff.mpr some)

/-- With a mark that is not empty the loop ends with the scan of the document. -/
theorem isScanned_scanDocument (line : Nat) (found : List Token) (cs : List Char) :
    IsScanned settings line found cs (scanDocument settings line found cs) := by
  induction size : cs.length using Nat.strong_induction_on generalizing line found cs with
  | _ size ih =>
  subst size
  by_cases empty : cs = []
  · subst empty
    rw [scanDocument_nil]
    exact .finished line found
  rcases split : splitAtMark settings.openMark.toList [] cs with ⟨outside, _ | inside⟩
  · rw [scanDocument_of_no_block empty split]
    exact .literal empty split
  rcases block : scanOpened settings line found outside inside with ⟨tokens, fault | ⟨lineAfter, rest⟩⟩
  · rw [scanDocument_of_fault empty split block]
    exact .stopped empty split block
  · have positive := marks_length_pos marked
    have taken := (scanOpened_ok_length split block).2
    have shorter : rest.length < cs.length := by omega
    rw [scanDocument_of_block empty split block shorter]
    exact .block empty split block (ih rest.length shorter lineAfter tokens rest rfl)

/-- What the loop adds to the tokens found so far. -/
theorem IsScanned.size_le {scanned : Scan} (isScanned : IsScanned settings line found cs scanned) :
    scanned.size ≤ found.length + 2 * cs.length + 1 := by
  induction isScanned with
  | finished line found => simp [Scan.size]
  | @literal line found cs outside nonempty split =>
      have counted := placeLiteral_length line found cs
      simp only [Scan.size, List.length_reverse]
      omega
  | stopped nonempty split block =>
      have counted := scanOpened_error_length split block
      simp only [Scan.size, List.length_reverse]
      omega
  | block nonempty split block _ ih =>
      have positive := marks_length_pos marked
      obtain ⟨counted, taken⟩ := scanOpened_ok_length split block
      omega

end Marked

/-- With a mark that is not empty the loop over a document ends, and it ends with the scan of the document:
after two tokens for each character and one more at most, the end of the input among them. -/
theorem scan_ends_within (settings : Settings) (text : String)
    (marked : settings.openMark ≠ "" ∨ settings.closeMark ≠ "") :
    (∀ scanned, IsScanned settings 1 [] text.toList scanned ↔ scanned = scan settings text) ∧
      (scan settings text).size ≤ 2 * text.length + 1 := by
  have some : settings.openMark.toList ≠ [] ∨ settings.closeMark.toList ≠ [] :=
    marked.imp (fun mark => by simpa using mark) fun mark => by simpa using mark
  have ends : IsScanned settings 1 [] text.toList (scan settings text) :=
    isScanned_scanDocument some 1 [] text.toList
  refine ⟨fun scanned => ⟨fun isScanned => isScanned.unique ends, ?_⟩, ?_⟩
  · rintro rfl
    exact ends
  · have bound := ends.size_le some
    rwa [List.length_nil, Nat.zero_add, String.length_toList] at bound

/-- With an empty opening mark a block is opened at every character outside of blocks. -/
theorem scan_ends_within_empty_open :
    (∀ scanned, IsScanned { openMark := "", closeMark := ";" } 1 [] ";;".toList scanned ↔
        scanned = scan { openMark := "", closeMark := ";" } ";;") ∧
      (scan { openMark := "", closeMark := ";" } ";;").size ≤ 5 :=
  scan_ends_within { openMark := "", closeMark := ";" } ";;" (.inr (by decide))

example : (scan { openMark := "", closeMark := ";" } ";;").size = 5 := by decide +kernel

/-- A block with an empty closing mark is closed where it was opened, if there is a character. -/
theorem scanOpened_of_empty_close (noClose : settings.closeMark = "") (line : Nat) (found : List Token)
    (outside : List Char) (nonempty : inside ≠ []) :
    (scanOpened settings line found outside inside).2 = .ok (line + lineEnds outside, inside) := by
  obtain ⟨c, rest, rfl⟩ := List.exists_cons_of_ne_nil nonempty
  have closes : blockStep settings (line + lineEnds outside) (line + lineEnds outside) (c :: rest) =
      .close (c :: rest) := by simp [blockStep, charStep, noClose]
  rw [scanOpened, scanBlock_of_close closes]

/-- With two empty marks the loop never ends once there is a character to scan. -/
theorem not_isScanned_of_empty_marks (noOpen : settings.openMark = "") (noClose : settings.closeMark = "")
    (nonempty : cs ≠ []) (scanned : Scan) : ¬ IsScanned settings line found cs scanned := by
  have opens : ∀ cs : List Char, cs ≠ [] → splitAtMark settings.openMark.toList [] cs = ([], some cs) := by
    rintro (_ | ⟨c, rest⟩) some
    · exact (some rfl).elim
    · simp [splitAtMark, noOpen]
  intro isScanned
  induction isScanned with
  | finished => exact nonempty rfl
  | literal some split => cases (opens _ some).symm.trans split
  | @stopped line found tokens cs outside inside fault some split block =>
      cases (opens _ some).symm.trans split
      have closed := scanOpened_of_empty_close noClose line found [] some
      rw [block] at closed
      cases closed
  | @block line lineAfter found tokens cs outside inside rest scanned some split block _ ih =>
      cases (opens _ some).symm.trans split
      have closed := scanOpened_of_empty_close noClose line found [] some
      rw [block] at closed
      cases closed
      exact ih some

end EquationText
