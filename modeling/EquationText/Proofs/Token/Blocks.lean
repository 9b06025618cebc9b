import EquationText.Proofs.Token.Continuation

/-! # The tokens of literal text and of blocks

Literal text has tokens of its own, and a block is a mark, tokens of the statement grammar, and the closing
mark if it is closed. A document is literal text, or a block and more after some literal text
(`EquationText.literal_or_block`).
-/

namespace EquationText

namespace Lexeme

/-- Whether a token is one of literal text. -/
def isLiteral : Lexeme → Bool
  | text _ | reference _ => true
  | _ => false

/-- Whether a token is one of the statement grammar. -/
def isInner : Lexeme → Bool
  | ident _ | keyword _ | number _ | operator _ | mark _ | statementEnd | command _ _ => true
  | text _ | reference _ | blockOpen | blockClose => false

theorem isLiteral_of_isInner {lexeme : Lexeme} (inner : lexeme.isInner = true) : lexeme.isLiteral = false := by
  cases lexeme <;> first | rfl | cases inner

end Lexeme

/-- What the token of a piece of literal text is. -/
def Piece.lexeme : Piece → Lexeme
  | words raw => .text (String.ofList raw)
  | reference name => .reference (String.ofList name)

variable {settings : Settings} {openedAt line lines : Nat} {found : List Token} {cs rest : List Char}
  {lexeme : Lexeme}

/-- A literal text has a token for each of its pieces. -/
theorem exists_placeLiteral_pieces (line : Nat) (found : List Token) (cs : List Char) :
    ∃ literal : List Token, (placeLiteral line found cs).1 = literal.reverse ++ found ∧
      literal.map Token.lexeme = (pieces cs).map Piece.lexeme := by
  have placed : ∀ (pieces : List Piece) (start : List Token × Nat), ∃ literal : List Token,
      (pieces.foldl placePiece start).1 = literal.reverse ++ start.1 ∧
        literal.map Token.lexeme = pieces.map Piece.lexeme := by
    intro pieces
    induction pieces with
    | nil => exact fun start => ⟨[], rfl, rfl⟩
    | cons piece later ih =>
        intro start
        have first : (placePiece start piece).1 = ⟨piece.lexeme, start.2⟩ :: start.1 := by
          cases piece <;> rfl
        obtain ⟨literal, whole, lexemes⟩ := ih (placePiece start piece)
        refine ⟨⟨piece.lexeme, start.2⟩ :: literal, ?_, by rw [List.map_cons, lexemes, List.map_cons]⟩
        rw [List.foldl_cons, whole, first, List.reverse_cons, List.append_assoc]
        rfl
  exact placed (pieces cs) (found, line)

/-- The tokens of pieces are literal. -/
theorem isLiteral_of_pieces {literal : List Token} {parts : List Piece}
    (lexemes : literal.map Token.lexeme = parts.map Piece.lexeme) :
    ∀ token ∈ literal, token.lexeme.isLiteral = true := by
  intro token member
  have lexeme : token.lexeme ∈ literal.map Token.lexeme := List.mem_map_of_mem member
  rw [lexemes] at lexeme
  obtain ⟨piece, _, same⟩ := List.mem_map.mp lexeme
  rw [← same]
  cases piece <;> rfl

/-- The tokens of a literal text come before those that were found. -/
theorem exists_placeLiteral (line : Nat) (found : List Token) (cs : List Char) :
    ∃ literal, (placeLiteral line found cs).1 = literal ++ found ∧
      ∀ token ∈ literal, token.lexeme.isLiteral = true := by
  obtain ⟨literal, placed, lexemes⟩ := exists_placeLiteral_pieces line found cs
  exact ⟨literal.reverse, placed, fun token member =>
    isLiteral_of_pieces lexemes token (List.mem_reverse.mp member)⟩

/-! ## Blocks -/

theorem Lexeme.StandsInBlock.isInner (stands : lexeme.StandsInBlock settings) : lexeme.isInner = true := by
  cases lexeme <;> first | rfl | exact stands.elim

/-- The tokens of a block come before those that were found, and a closing mark before them if the block
is closed. -/
theorem exists_scanBlock (settings : Settings) (openedAt line : Nat) (found : List Token) (cs : List Char) :
    ∃ inner, (∀ token ∈ inner, token.lexeme.isInner = true) ∧
      ((∃ fault, scanBlock settings openedAt line found cs = (inner ++ found, .error fault)) ∨
        ∃ lineAfter rest, scanBlock settings openedAt line found cs =
          (⟨.blockClose, lineAfter⟩ :: (inner ++ found), .ok (lineAfter, rest))) := by
  fun_induction scanBlock settings openedAt line found cs with
  | case1 line found cs rest step ih => exact ih
  | case2 line found cs lexeme lines rest step ih =>
      obtain ⟨inner, allInner, scanned⟩ := ih
      have first : ∀ token ∈ [(⟨lexeme, line⟩ : Token)], token.lexeme.isInner = true := by
        simpa using (blockStep_lexeme step).isInner
      refine ⟨inner ++ [⟨lexeme, line⟩], List.forall_mem_append.mpr ⟨allInner, first⟩, ?_⟩
      rwa [List.append_assoc]
  | case3 line found cs rest step => exact ⟨[], List.forall_mem_nil _, .inr ⟨line, rest, rfl⟩⟩
  | case4 line found cs fault step => exact ⟨[], List.forall_mem_nil _, .inl ⟨fault, rfl⟩⟩

/-! ## Documents -/

/-- Whether a document has nothing but literal text. -/
structure IsLiteral (settings : Settings) (text : String) : Prop where
  tokens : ∀ token ∈ (scan settings text).tokens, token.lexeme.isLiteral = true
  ending : ∃ line, (scan settings text).ending = .ok line

/-- Whether a document goes on with a block after some part: the block starts with the opening mark, and
has the tokens of some statements and then its closing mark, unless the end of the document cuts it off. -/
structure IsBlockAfter (settings : Settings) (outside block rest : String) : Prop where
  opened : settings.openMark.toList <+: block.toList
  tokens : ∃ line inner closing, (∀ token ∈ inner, token.lexeme.isInner = true) ∧
    (scan settings (outside ++ block)).tokens =
      (scan settings outside).tokens ++ ⟨.blockOpen, line⟩ :: (inner ++ closing) ∧
    (closing = [] ∧ rest = "" ∨ ∃ lineAfter, closing = [⟨.blockClose, lineAfter⟩] ∧
      (scan settings (outside ++ block)).ending = .ok lineAfter)

theorem scan_of_no_block {text : String}
    (split : splitAtMark settings.openMark.toList [] text.toList = (text.toList, none)) :
    scan settings text =
      ⟨(placeLiteral 1 [] text.toList).1.reverse, .ok (1 + lineEnds text.toList)⟩ := by
  by_cases empty : text.toList = []
  · have none : pieces [] = [] := by rw [pieces, piecesFrom]; rfl
    rw [scan, empty, scanDocument_nil, placeLiteral, none]
    rfl
  · exact scanDocument_of_no_block empty split

theorem isLiteral_of_no_block {text : String}
    (split : splitAtMark settings.openMark.toList [] text.toList = (text.toList, none)) :
    IsLiteral settings text := by
  obtain ⟨literal, placed, allLiteral⟩ := exists_placeLiteral 1 [] text.toList
  refine ⟨?_, 1 + lineEnds text.toList, by rw [scan_of_no_block split]⟩
  rw [scan_of_no_block split, placed, List.append_nil]
  exact fun token member => allLiteral token (List.mem_reverse.mp member)

section Shape

variable (usual : settings.HasUsualMarks)
include usual

/-- What starts at the first opening mark is a block after the literal text before it: either nothing comes
after it, because it is cut off, or it goes as far as its closing mark. -/
theorem isBlockAfter_of_split {outside inside : List Char} {rest : String}
    (alone : splitAtMark settings.openMark.toList [] outside = (outside, none))
    (split : splitAtMark settings.openMark.toList [] (outside ++ settings.openMark.toList ++ inside) =
      (outside, some inside))
    (cutOff : ∀ tokens fault,
      scanOpened settings 1 [] outside inside = (tokens, .error fault) → rest = "")
    (closed : ∀ tokens line left, scanOpened settings 1 [] outside inside = (tokens, .ok (line, left)) →
      left = []) :
    IsBlockAfter settings (String.ofList outside)
      (String.ofList (settings.openMark.toList ++ inside)) rest := by
  have whole : (String.ofList outside ++ String.ofList (settings.openMark.toList ++ inside)).toList =
      outside ++ settings.openMark.toList ++ inside := by simp
  have literal : scan settings (String.ofList outside) = _ :=
    scan_of_no_block (by rwa [String.toList_ofList])
  have nonempty := openMark_append_ne_nil usual outside inside
  obtain ⟨inner, allInner, scanned⟩ := exists_scanBlock settings (1 + lineEnds outside)
    (1 + lineEnds outside) (⟨.blockOpen, 1 + lineEnds outside⟩ :: (placeLiteral 1 [] outside).1) inside
  have reversed : ∀ token ∈ inner.reverse, token.lexeme.isInner = true := fun token member =>
    allInner token (List.mem_reverse.mp member)
  refine ⟨by simp, 1 + lineEnds outside, inner.reverse, ?_⟩
  rw [literal, String.toList_ofList, scan, whole]
  rcases scanned with ⟨fault, block⟩ | ⟨lineAfter, left, block⟩
  · refine ⟨[], reversed, ?_, .inl ⟨rfl, cutOff _ fault block⟩⟩
    rw [scanDocument_of_fault nonempty split block]
    simp
  · cases closed _ _ _ block
    have shorter : ([] : List Char).length < (outside ++ settings.openMark.toList ++ inside).length :=
      List.length_pos_iff.mpr nonempty
    refine ⟨[⟨.blockClose, lineAfter⟩], reversed, ?_, .inr ⟨lineAfter, rfl, ?_⟩⟩ <;>
      rw [scanDocument_of_block nonempty split block shorter, scanDocument_nil]
    simp

/-- A document is literal text, or literal text with a block after it and more. -/
theorem literal_or_block (text : String) :
    IsLiteral settings text ∨ ∃ outside block rest, text = outside ++ block ++ rest ∧
      IsLiteral settings outside ∧ IsBlockAfter settings outside block rest := by
  have literal : ∀ {outside : List Char},
      splitAtMark settings.openMark.toList [] outside = (outside, none) →
        IsLiteral settings (String.ofList outside) := fun alone =>
    isLiteral_of_no_block (by rwa [String.toList_ofList])
  have shape := documentShape usual 1 [] text.toList
  generalize whole : text.toList = cs at shape
  have text_eq : text = String.ofList cs := by rw [← whole, String.ofList_toList]
  subst text_eq
  cases shape with
  | literal split => exact .inl (literal split)
  | @cutOff outside inside tokens fault alone split block =>
      refine .inr ⟨String.ofList outside, String.ofList (settings.openMark.toList ++ inside), "", ?_,
        literal alone, isBlockAfter_of_split usual alone split (fun _ _ _ => rfl) ?_⟩
      · simp [← String.ofList_append]
      · intro _ _ _ scanned
        rw [block] at scanned
        cases scanned
  | @closed outside inner rest tokens alone split block =>
      have alike := split []
      have closes := block []
      rw [List.append_nil] at alike closes
      refine .inr ⟨String.ofList outside, String.ofList (settings.openMark.toList ++ inner),
        String.ofList rest, ?_, literal alone, isBlockAfter_of_split usual alone alike ?_ ?_⟩
      · simp [← String.ofList_append]
      · intro _ _ scanned
        rw [closes] at scanned
        cases scanned
      · intro _ _ _ scanned
        rw [closes] at scanned
        cases scanned
        rfl

namespace IsBlockAfter

variable {first outside block rest : String} (isBlock : IsBlockAfter settings outside block rest)
include isBlock

/-- What is left after a block is shorter than the block with it. -/
theorem length_lt : rest.toList.length < (block ++ rest).toList.length := by
  have longer := isBlock.opened.length_le
  rw [usual.openMark_toList, List.length_cons] at longer
  rw [String.toList_append, List.length_append]
  omega

omit usual in
/-- Where something is left after a block, the document up to there ends with the block. -/
theorem endsClosed (more : rest ≠ "") :
    EndsClosed (scan settings (outside ++ block)).tokens ∧
      ∃ line, (scan settings (outside ++ block)).ending = .ok line := by
  obtain ⟨line, inner, closing, _, tokens, ⟨_, none⟩ | ⟨lineAfter, rfl, ending⟩⟩ := isBlock.tokens
  · exact (more none).elim
  · refine ⟨?_, lineAfter, ending⟩
    rw [tokens, ← List.cons_append, ← List.append_assoc]
    intro last member
    rw [List.getLast?_concat] at member
    cases member
    rfl

/-- A block after some part of a document is one after the part with a closed part before it. -/
theorem after {lineAfter : Nat} (closed : EndsClosed (scan settings first).tokens)
    (ending : (scan settings first).ending = .ok lineAfter) :
    IsBlockAfter settings (first ++ outside) block rest := by
  obtain ⟨line, inner, closing, allInner, tokens, ends⟩ := isBlock.tokens
  have further : ∀ text, scan settings (first ++ text) = _ :=
    fun text => scan_append usual text closed ending
  let lines := lineEnds first.toList
  refine ⟨isBlock.opened, line + lines, inner.map (·.movedDown lines),
    closing.map (·.movedDown lines), ?_⟩
  rw [String.append_assoc, further, further, tokens]
  refine ⟨by simpa using allInner, by simp [Token.movedDown, lines], ?_⟩
  rcases ends with ⟨rfl, none⟩ | ⟨lineAfter, rfl, ended⟩
  · exact .inl ⟨rfl, none⟩
  · exact .inr ⟨lineAfter + lines, rfl, by rw [ended]; rfl⟩

end IsBlockAfter

end Shape

end EquationText
