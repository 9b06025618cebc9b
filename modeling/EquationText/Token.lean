import EquationText.Expr.Show
import EquationText.Settings

/-! # Tokens

A document is a sequence of literal text and references outside its blocks of equations, and of the
tokens of the statement grammar inside them.
-/

namespace EquationText

/-- What a token is. -/
inductive Lexeme
  /-- Literal text outside blocks. -/
  | text (raw : String)
  /-- A name outside blocks that may be replaced by its value. -/
  | reference (name : String)
  /-- A name inside a block. -/
  | ident (name : String)
  /-- The word for an unnamed unknown. -/
  | keyword (word : String)
  /-- A number. -/
  | number (value : Double)
  /-- An arithmetic operator or the equals sign. -/
  | operator (sign : Char)
  /-- A parenthesis, a bracket or a comma. -/
  | mark (sign : Char)
  /-- The end of a statement: a semicolon or the end of a line. -/
  | statementEnd
  /-- The beginning of a block. -/
  | blockOpen
  /-- The end of a block. -/
  | blockClose
  /-- A command with the rest of its statement. -/
  | command (name payload : String)
deriving DecidableEq

/-- A token and the line on which it starts. -/
structure Token where
  lexeme : Lexeme
  line : Nat
deriving DecidableEq

namespace Lexeme

/-- How a token is quoted in messages. -/
def shown (settings : Settings) : Lexeme → String
  | text raw => raw
  | reference name => name
  | ident name => name
  | keyword word => word
  | number value => value.toBrief
  | operator sign => sign.toString
  | mark sign => sign.toString
  | statementEnd => ";"
  | blockOpen => settings.openMark
  | blockClose => settings.closeMark
  | command name payload =>
    String.ofList (trimBlanksRight s!"{settings.commandMark}{name} {payload}".toList)

end Lexeme

/-- How the end of a document is quoted in messages. -/
def endOfInputText : String := "end of input"

/-- The tokens of a document: as many as could be read, and then either the last line or the fault
that ended the reading. -/
structure Scan where
  tokens : List Token
  ending : Except Fault Nat

end EquationText
