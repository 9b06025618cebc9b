import EquationText.Text.Printable

/-! # Quoted text

Messages quote a text between apostrophes, or between double quotes when it holds an apostrophe and
no double quote. What is not printable is written as an escape.
-/

namespace EquationText

/-- The lowercase hexadecimal digits of a number, filled up with zeros to `width`. -/
def hexDigits (width n : Nat) : List Char :=
  let digits := Nat.toDigits 16 n
  List.replicate (width - digits.length) '0' ++ digits

/-- How a character is written between the quotes `quote`. -/
def quotedChar (quote c : Char) : List Char :=
  if c = quote || c = '\\' then ['\\', c]
  else if c = '\n' then ['\\', 'n']
  else if c = '\r' then ['\\', 'r']
  else if c = '\t' then ['\\', 't']
  else if isPrintable c then [c]
  else if c.toNat < 0x100 then '\\' :: 'x' :: hexDigits 2 c.toNat
  else if c.toNat < 0x10000 then '\\' :: 'u' :: hexDigits 4 c.toNat
  else '\\' :: 'U' :: hexDigits 8 c.toNat

/-- The quotes that are put around a text. -/
def quoteFor (cs : List Char) : Char :=
  if cs.contains '\'' && !cs.contains '"' then '"' else '\''

/-- A text in quotes. -/
def quoted (text : String) : String :=
  let quote := quoteFor text.toList
  String.ofList (quote :: (text.toList.flatMap (quotedChar quote) ++ [quote]))

/-- An optional text in quotes. -/
def quotedOption : Option String → String
  | some text => quoted text
  | none => "None"

/-- Names with their texts, all in quotes and in order, between braces. -/
def quotedBindings (bindings : List (String × Option String)) : String :=
  let shown := bindings.map fun binding => s!"{quoted binding.1}: {quotedOption binding.2}"
  "\x7b" ++ ", ".intercalate shown ++ "\x7d"

end EquationText
