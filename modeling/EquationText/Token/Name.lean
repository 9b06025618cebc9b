/-! # Names and references

A name is a letter or an underscore followed by letters, digits and underscores, all ASCII. In
literal text a name is a reference unless it continues a word or follows a number sign, and it may
carry a suffix that selects a part of a complex value.
-/

namespace EquationText

/-- Whether a character may start a name. -/
def isNameStart (c : Char) : Bool := c.isAlpha || c = '_'

/-- Whether a character may continue a name. -/
def isNameChar (c : Char) : Bool := c.isAlphanum || c = '_'

/-- The name at the start of a text, if there is one, and what follows it. -/
def takeName : List Char → Option (List Char × List Char)
  | [] => none
  | c :: rest =>
    if isNameStart c then some (c :: rest.takeWhile isNameChar, rest.dropWhile isNameChar)
    else none

/-- Whether a text is a name. -/
def isName : List Char → Bool
  | [] => false
  | c :: rest => isNameStart c && rest.all isNameChar

/-- The suffix for the real or the imaginary part at the start of a text, unless a name character
follows it, and what comes after it. -/
def takePartSuffix : List Char → List Char × List Char
  | '#' :: part :: rest =>
    if (part = 'r' || part = 'i') && !(rest.head?.any isNameChar) then (['#', part], rest)
    else ([], '#' :: part :: rest)
  | cs => ([], cs)

/-- The rest of the reference that starts with a given character, and what follows it. -/
def takeReference (start : Char) (cs : List Char) : List Char × List Char :=
  let (suffix, rest) := takePartSuffix (cs.dropWhile isNameChar)
  (start :: cs.takeWhile isNameChar ++ suffix, rest)

/-- Whether a reference may come after a character, or at the start of a text. -/
def allowsReference : Option Char → Bool
  | none => true
  | some c => !(isNameChar c || c = '#')

/-- A stretch of literal text: words that stay as they are, or a reference. -/
inductive Piece
  | words (raw : List Char)
  | reference (name : List Char)
deriving DecidableEq

/-- The characters of a piece. -/
def Piece.chars : Piece → List Char
  | words raw => raw
  | reference name => name

/-- Puts collected words, last character first, in front of pieces, last piece first. -/
def collectWords (pending : List Char) (found : List Piece) : List Piece :=
  if pending.isEmpty then found else .words pending.reverse :: found

theorem dropWhile_length_le {α : Type} (p : α → Bool) (cs : List α) :
    (cs.dropWhile p).length ≤ cs.length :=
  (List.dropWhile_sublist p).length_le

theorem takePartSuffix_length_le (cs : List Char) : (takePartSuffix cs).2.length ≤ cs.length := by
  unfold takePartSuffix
  split
  · split
    · exact Nat.le_add_right _ 2
    · exact Nat.le_refl _
  · exact Nat.le_refl _

theorem takeReference_length_le (start : Char) (cs : List Char) :
    (takeReference start cs).2.length ≤ cs.length :=
  Nat.le_trans (takePartSuffix_length_le _) (dropWhile_length_le _ _)

/-- Splits literal text into its pieces: `previous` is the character before the text, `pending`
holds the words being collected, and `found` the pieces so far, both last first. -/
def piecesFrom (previous : Option Char) (pending : List Char) (found : List Piece) :
    List Char → List Piece
  | [] => (collectWords pending found).reverse
  | c :: rest =>
    if isNameStart c && allowsReference previous then
      let reference := takeReference c rest
      piecesFrom reference.1.getLast? [] (.reference reference.1 :: collectWords pending found)
        reference.2
    else piecesFrom (some c) (c :: pending) found rest
termination_by cs => cs.length
decreasing_by
  · exact Nat.lt_succ_of_le (takeReference_length_le c rest)
  · simp

/-- The pieces of a literal text. -/
def pieces (cs : List Char) : List Piece := piecesFrom none [] [] cs

end EquationText
