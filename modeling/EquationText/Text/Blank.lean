import EquationText.Text.CodePoints

/-! # Blank characters

The characters that separate words: the spaces and line separators of Unicode and the ASCII
controls used for layout or as information separators.
-/

namespace EquationText

/-- The blank characters. -/
def blankRanges : CodePoints := [
  (0x9, 0xd), (0x1c, 0x20), (0x85, 0x85), (0xa0, 0xa0), (0x1680, 0x1680), (0x2000, 0x200a),
  (0x2028, 0x2029), (0x202f, 0x202f), (0x205f, 0x205f), (0x3000, 0x3000)]

/-- Whether the character separates words. -/
def isBlank (c : Char) : Bool := blankRanges.holds c

/-- The text without blank characters at its ends. -/
def trimBlanks (cs : List Char) : List Char :=
  ((cs.dropWhile isBlank).reverse.dropWhile isBlank).reverse

/-- The text without blank characters at its end. -/
def trimBlanksRight (cs : List Char) : List Char := (cs.reverse.dropWhile isBlank).reverse

/-- The maximal stretches of characters that are not blank; `word` holds the stretch being read,
last character first. -/
def blankWordsFrom (word : List Char) : List Char → List (List Char)
  | [] => if word.isEmpty then [] else [word.reverse]
  | c :: rest =>
    if isBlank c then
      if word.isEmpty then blankWordsFrom [] rest else word.reverse :: blankWordsFrom [] rest
    else blankWordsFrom (c :: word) rest

/-- The words of a text, in order. -/
def blankWords (cs : List Char) : List (List Char) := blankWordsFrom [] cs

end EquationText
