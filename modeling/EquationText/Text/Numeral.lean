import EquationText.Numeric.Double
import EquationText.Text.Blank
import EquationText.Text.Digit

/-! # Numerals

Whole numbers and doubles are read from text with blanks around it, an optional sign, decimal
digits of any script and single underscores between digits.
-/

namespace EquationText

/-- Blank characters around a numeral; the information separators do not count. -/
def isNumeralBlank (c : Char) : Bool := isBlank c && !(0x1c ≤ c.toNat && c.toNat ≤ 0x1f)

/-- A decimal digit of any script as the ASCII digit of its value, other characters unchanged. -/
def toAsciiDigit (c : Char) : Char :=
  match decimalDigit? c with
  | some value => Char.ofNat ('0'.toNat + value)
  | none => c

/-- The text without underscores, provided each stands between two digits; `afterDigit` says
whether a digit comes right before. -/
def dropSeparators (afterDigit : Bool) : List Char → Option (List Char)
  | [] => some []
  | '_' :: rest =>
    match rest with
    | next :: _ => if afterDigit && next.isDigit then dropSeparators false rest else none
    | [] => none
  | c :: rest => (dropSeparators c.isDigit rest).map (c :: ·)

/-- The text of a numeral without the blanks around it and in ASCII digits. -/
def numeralText (cs : List Char) : List Char :=
  let trimmed := ((cs.dropWhile isNumeralBlank).reverse.dropWhile isNumeralBlank).reverse
  trimmed.map toAsciiDigit

/-- The value of a string of ASCII digits. -/
def digitsValue (cs : List Char) : Nat :=
  cs.foldl (fun value c => 10 * value + (c.toNat - '0'.toNat)) 0

/-- A leading sign, true for minus, and what follows it. -/
def splitSign : List Char → Bool × List Char
  | '-' :: rest => (true, rest)
  | '+' :: rest => (false, rest)
  | cs => (false, cs)

/-- Why a text is not read as a whole number. -/
inductive IntegerFault
  | malformed
  | tooLong (digits : Nat)
deriving DecidableEq

/-- More digits than this are refused. -/
def maxIntegerDigits : Nat := 4300

/-- The whole number written by a text. -/
def readInteger (cs : List Char) : Except IntegerFault Int :=
  match dropSeparators false (numeralText cs) with
  | none => .error .malformed
  | some plain =>
    let (negative, digits) := splitSign plain
    if digits.isEmpty || !digits.all Char.isDigit then .error .malformed
    else if maxIntegerDigits < digits.length then .error (.tooLong digits.length)
    else
      let value : Int := digitsValue digits
      .ok (if negative then -value else value)

namespace Double

/-- The double nearest to `digits * 10 ^ exponent`; magnitudes far outside the range are settled by
the exponent alone. -/
def ofDecimal (digits : Nat) (exponent : Int) : Double :=
  if digits = 0 then .finite 0
  else
    let leading : Int := exponent + (Nat.toDigits 10 digits).length
    if 400 < leading then .infinite false
    else if leading < -400 then .finite 0
    else .ofRat (mkRat (digits * Nat.pow 10 exponent.toNat) (Nat.pow 10 (-exponent).toNat))

end Double

/-- The exponent written at the end of a numeral, zero when nothing is left to read. -/
def readExponent? : List Char → Option Int
  | [] => some 0
  | mark :: rest =>
    if mark = 'e' || mark = 'E' then
      let (negative, digits) := splitSign rest
      if digits.isEmpty || !digits.all Char.isDigit then none
      else
        let value : Int := digitsValue digits
        some (if negative then -value else value)
    else none

/-- The double written by digits with an optional point and an optional exponent. -/
def readMagnitude? (cs : List Char) : Option Double :=
  let whole := cs.takeWhile Char.isDigit
  let afterWhole := cs.dropWhile Char.isDigit
  let (fraction, rest) :=
    match afterWhole with
    | '.' :: tail => (tail.takeWhile Char.isDigit, tail.dropWhile Char.isDigit)
    | _ => ([], afterWhole)
  if whole.isEmpty && fraction.isEmpty then none
  else (readExponent? rest).map fun exponent =>
    .ofDecimal (digitsValue (whole ++ fraction)) (exponent - fraction.length)

/-- The double written by a text, infinities and the value that is no number included. -/
def readDouble? (cs : List Char) : Option Double :=
  match dropSeparators false (numeralText cs) with
  | none => none
  | some plain =>
    let (negative, body) := splitSign plain
    let word := String.ofList (body.map Char.toLower)
    let magnitude :=
      if word = "inf" || word = "infinity" then some (.infinite false)
      else if word = "nan" then some .nan
      else readMagnitude? body
    magnitude.map fun d => if negative then d.neg else d

end EquationText
