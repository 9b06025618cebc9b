import EquationText.Proofs.Token.Passage

/-! # The names in a scan

Scanning never gives the word for an unnamed unknown as a name inside a block
(`EquationText.scan_names`), so that no equation of a document mentions an unknown of that name.
-/

namespace EquationText

/-- Whether a token is no name inside a block or an allowed one. -/
def Lexeme.NameAllowed (allows : String → Prop) : Lexeme → Prop
  | ident name => allows name
  | _ => True

/-- Whether the names inside the blocks of some tokens are allowed. -/
def NamesAllowed (allows : String → Prop) (tokens : List Token) : Prop :=
  ∀ token ∈ tokens, token.lexeme.NameAllowed allows

namespace NamesAllowed

variable {allows : String → Prop} {token : Token} {tokens : List Token}

theorem nil : NamesAllowed allows [] := List.forall_mem_nil _

theorem cons (head : token.lexeme.NameAllowed allows) (tail : NamesAllowed allows tokens) :
    NamesAllowed allows (token :: tokens) := List.forall_mem_cons.mpr ⟨head, tail⟩

theorem head (allowed : NamesAllowed allows (token :: tokens)) : token.lexeme.NameAllowed allows :=
  (List.forall_mem_cons.mp allowed).1

theorem tail (allowed : NamesAllowed allows (token :: tokens)) : NamesAllowed allows tokens :=
  (List.forall_mem_cons.mp allowed).2

theorem reverse (allowed : NamesAllowed allows tokens) : NamesAllowed allows tokens.reverse :=
  fun token member => allowed token (List.mem_reverse.mp member)

end NamesAllowed

variable {settings : Settings} {allows : String → Prop} {found : List Token}

/-! ## Literal text -/

theorem placePiece_names {placed : List Token × Nat} (allowed : NamesAllowed allows placed.1)
    (piece : Piece) : NamesAllowed allows (placePiece placed piece).1 := by
  cases piece with
  | words raw => exact .cons trivial allowed
  | reference name => exact .cons trivial allowed

theorem placeLiteral_names (allowed : NamesAllowed allows found) (line : Nat) (cs : List Char) :
    NamesAllowed allows (placeLiteral line found cs).1 := by
  have placed : ∀ (pieces : List Piece) (start : List Token × Nat), NamesAllowed allows start.1 →
      NamesAllowed allows (pieces.foldl placePiece start).1 := by
    intro pieces
    induction pieces with
    | nil => exact fun _ allowed => allowed
    | cons piece rest ih => exact fun start allowed => ih _ (placePiece_names allowed piece)
  exact placed _ _ allowed

/-! ## Blocks -/

variable {cs : List Char} {line openedAt : Nat}

theorem Lexeme.StandsInBlock.nameAllowed {lexeme : Lexeme} (stands : lexeme.StandsInBlock settings) :
    lexeme.NameAllowed (· ≠ settings.anonymousWord) := by
  cases lexeme with
  | ident name => exact stands
  | _ => trivial

theorem scanBlock_names (allowed : NamesAllowed (· ≠ settings.anonymousWord) found) :
    NamesAllowed (· ≠ settings.anonymousWord)
      (scanBlock settings openedAt line found cs).1 := by
  fun_induction scanBlock settings openedAt line found cs with
  | case1 line found cs rest step ih => exact ih allowed
  | case2 line found cs lexeme lines rest step ih =>
      exact ih (.cons (blockStep_lexeme step).nameAllowed allowed)
  | case3 line found cs rest step => exact .cons trivial allowed
  | case4 line found cs fault step => exact allowed

/-! ## Documents -/

/-- The tokens of a literal text and of the block after it. -/
theorem scanBlock_placeLiteral_names (allowed : NamesAllowed (· ≠ settings.anonymousWord) found)
    (inside : List Char) {placed : List Token × Nat} (same : placeLiteral line found cs = placed) :
    NamesAllowed (· ≠ settings.anonymousWord)
      (scanBlock settings placed.2 placed.2 (⟨.blockOpen, placed.2⟩ :: placed.1) inside).1 := by
  subst same
  exact scanBlock_names (.cons trivial (placeLiteral_names allowed line cs))

/-- A document goes on with allowed names after a block as before it. -/
theorem scanDocument_names (allowed : NamesAllowed (· ≠ settings.anonymousWord) found) :
    NamesAllowed (· ≠ settings.anonymousWord) (scanDocument settings line found cs).tokens := by
  fun_induction scanDocument settings line found cs with
  | case1 => exact allowed.reverse
  | case2 line found cs nonempty split placed last =>
      exact (placeLiteral_names allowed line split.1).reverse
  | case3 line found cs nonempty split placed inside opened tokens fault block =>
      have scanned := scanBlock_placeLiteral_names allowed inside (rfl : _ = placed)
      rw [block] at scanned
      exact scanned.reverse
  | case4 line found cs nonempty split placed inside opened tokens lineAfter rest block shorter ih =>
      have scanned := scanBlock_placeLiteral_names allowed inside (rfl : _ = placed)
      rw [block] at scanned
      exact ih scanned
  | case5 line found cs nonempty split placed inside opened tokens lineAfter rest block longer =>
      have scanned := scanBlock_placeLiteral_names allowed inside (rfl : _ = placed)
      rw [block] at scanned
      exact scanned.reverse

/-- The word for an unnamed unknown is never a name inside a block. -/
theorem scan_names (settings : Settings) (text : String) :
    NamesAllowed (· ≠ settings.anonymousWord) (scan settings text).tokens :=
  scanDocument_names .nil

end EquationText
