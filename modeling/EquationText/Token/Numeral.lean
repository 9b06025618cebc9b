import EquationText.Text.Numeral

/-! # Numerals in blocks

A numeral is decimal digits of any script with an optional point, or a point and digits, and an
optional exponent. An exponent without digits is not part of the numeral.
-/

namespace EquationText

/-- The sign at the start of a text, if there is one, and what follows it. -/
def takeSign : List Char → List Char × List Char
  | '+' :: rest => (['+'], rest)
  | '-' :: rest => (['-'], rest)
  | cs => ([], cs)

/-- The exponent at the start of a text, if one is written in full, and what follows it. -/
def takeExponent : List Char → List Char × List Char
  | [] => ([], [])
  | mark :: rest =>
    if (mark = 'e' || mark = 'E') && (takeSign rest).2.head?.any isDecimalDigit then
      (mark :: (takeSign rest).1 ++ (takeSign rest).2.takeWhile isDecimalDigit,
        (takeSign rest).2.dropWhile isDecimalDigit)
    else ([], mark :: rest)

/-- The digits and the point at the start of a numeral, if there is one, and what follows. -/
def takeMantissa (cs : List Char) : Option (List Char × List Char) :=
  match cs.takeWhile isDecimalDigit, cs.dropWhile isDecimalDigit with
  | [], '.' :: tail =>
    if tail.head?.any isDecimalDigit then
      some ('.' :: tail.takeWhile isDecimalDigit, tail.dropWhile isDecimalDigit)
    else none
  | [], _ => none
  | digit :: whole, '.' :: tail =>
    some (digit :: whole ++ '.' :: tail.takeWhile isDecimalDigit, tail.dropWhile isDecimalDigit)
  | digit :: whole, rest => some (digit :: whole, rest)

/-- The numeral at the start of a text, if there is one, and what follows it. -/
def takeNumeral (cs : List Char) : Option (List Char × List Char) :=
  match takeMantissa cs with
  | none => none
  | some mantissa => some (mantissa.1 ++ (takeExponent mantissa.2).1, (takeExponent mantissa.2).2)

/-- The double that a numeral stands for. -/
def numeralValue (numeral : List Char) : Double :=
  (readMagnitude? (numeral.map toAsciiDigit)).getD .nan

theorem takeSign_append (cs : List Char) : (takeSign cs).1 ++ (takeSign cs).2 = cs := by
  unfold takeSign
  split <;> rfl

theorem takeExponent_append (cs : List Char) :
    (takeExponent cs).1 ++ (takeExponent cs).2 = cs := by
  unfold takeExponent
  split
  · rfl
  · split
    · simp [List.takeWhile_append_dropWhile, takeSign_append]
    · rfl

/-- The mantissa of a numeral stands at the start of the text, and has at least a digit. -/
theorem takeMantissa_append {cs : List Char} {mantissa : List Char × List Char}
    (taken : takeMantissa cs = some mantissa) :
    mantissa.1 ++ mantissa.2 = cs ∧ mantissa.1 ≠ [] := by
  have whole := List.takeWhile_append_dropWhile (p := isDecimalDigit) (l := cs)
  unfold takeMantissa at taken
  split at taken <;> rename_i first second <;> simp only [first, second] at whole
  · split at taken
    · cases taken
      simpa [List.takeWhile_append_dropWhile] using whole
    · cases taken
  · cases taken
  · cases taken
    simpa [List.takeWhile_append_dropWhile] using whole
  · cases taken
    simpa using whole

/-- A numeral, which has a character at least, and what follows it make up the text. -/
theorem takeNumeral_append {cs : List Char} {numeral : List Char × List Char}
    (taken : takeNumeral cs = some numeral) : numeral.1 ++ numeral.2 = cs ∧ numeral.1 ≠ [] := by
  unfold takeNumeral at taken
  split at taken
  · cases taken
  · rename_i mantissa mantissaTaken
    have parts := takeMantissa_append mantissaTaken
    cases taken
    simp only [List.append_assoc, takeExponent_append]
    exact ⟨parts.1, by simp [parts.2]⟩

/-- What follows a numeral is shorter than the text. -/
theorem takeNumeral_length_lt {cs : List Char} {numeral : List Char × List Char}
    (taken : takeNumeral cs = some numeral) : numeral.2.length < cs.length := by
  obtain ⟨whole, nonempty⟩ := takeNumeral_append taken
  have positive := List.length_pos_iff.2 nonempty
  rw [← whole, List.length_append]
  omega

end EquationText
