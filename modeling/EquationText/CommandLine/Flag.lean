import EquationText.Log
import EquationText.Text.Numeral
import EquationText.Text.Quoted

/-! # The options of the command line

The flags that the program takes, with their spellings and their values, and the choices that they
add up to.
-/

namespace EquationText

/-- The name and the version of the program. -/
def programName : String := "lineqpp"

def programVersion : String := "1.0.0"

/-- The flags of the command line. -/
inductive Flag
  | help
  | output
  | debug
  | version
  | precision
  | maxStackDepth
  | logLevel
  | logFile
deriving DecidableEq

namespace Flag

/-- Every flag. -/
def all : List Flag :=
  [help, output, debug, version, precision, maxStackDepth, logLevel, logFile]

/-- The letter of a flag, if it has one. -/
def letter? : Flag → Option Char
  | help => some 'h'
  | output => some 'o'
  | debug => some 'd'
  | version => some 'v'
  | precision => some 'p'
  | maxStackDepth | logLevel | logFile => none

/-- The word of a flag. -/
def word : Flag → String
  | help => "help"
  | output => "output"
  | debug => "debug"
  | version => "version"
  | precision => "precision"
  | maxStackDepth => "max-stack-depth"
  | logLevel => "log-level"
  | logFile => "log-file"

/-- The names of the levels that the log may have. -/
def levelNames : List String := ["DEBUG", "INFO", "WARNING", "ERROR"]

/-- How the value of a flag is called, if the flag takes one. -/
def valueName? : Flag → Option String
  | help | debug | version => none
  | output => some "OUTPUT"
  | precision => some "PRECISION"
  | maxStackDepth => some "MAX_STACK_DEPTH"
  | logLevel => some ("\x7b" ++ ",".intercalate levelNames ++ "\x7d")
  | logFile => some "LOG_FILE"

/-- Whether a flag takes a value. -/
def takesValue (flag : Flag) : Bool := flag.valueName?.isSome

/-- The spellings of a flag: its letter, then its word. -/
def spellings (flag : Flag) : List String :=
  (flag.letter?.map fun letter => s!"-{letter}").toList ++ [s!"--{flag.word}"]

/-- The flag of a letter. -/
def ofLetter? (letter : Char) : Option Flag := all.find? fun flag => flag.letter? = some letter

/-- The flags with a spelling that starts with the given text, each with that spelling. -/
def startingWith (text : String) : List (Flag × String) :=
  all.flatMap fun flag =>
    (flag.spellings.filter fun spelling => text.toList.isPrefixOf spelling.toList).map (flag, ·)

/-- The flag that a text spells out or abbreviates, and otherwise all that it may stand for. -/
def ofText (text : String) : List (Flag × String) :=
  let candidates := startingWith text
  match candidates.find? fun candidate => candidate.2 = text with
  | some exact => [exact]
  | none => candidates

/-- How a flag is called in messages. -/
def label (flag : Flag) : String := "/".intercalate flag.spellings

end Flag

/-- Why the arguments of a command cannot be taken. -/
inductive ArgumentFault
  | ambiguous (argument : String) (spellings : List String)
  | valueMissing (flag : Flag)
  | valueIgnored (flag : Flag) (value : String)
  | notInteger (flag : Flag) (value : String)
  | notLevel (flag : Flag) (value : String)
  | unrecognized (arguments : List String)
deriving DecidableEq

/-- The text of a fault of the arguments. -/
def ArgumentFault.message : ArgumentFault → String
  | ambiguous argument spellings =>
    "ambiguous option: " ++ argument ++ " could match " ++ ", ".intercalate spellings
  | valueMissing flag => s!"argument {flag.label}: expected one argument"
  | valueIgnored flag value => s!"argument {flag.label}: ignored explicit argument {quoted value}"
  | notInteger flag value => s!"argument {flag.label}: invalid int value: {quoted value}"
  | notLevel flag value =>
    let choices := ", ".intercalate (Flag.levelNames.map quoted)
    s!"argument {flag.label}: invalid choice: {quoted value} (choose from {choices})"
  | unrecognized arguments => "unrecognized arguments: " ++ " ".intercalate arguments

/-- What the arguments of a command choose. -/
structure Choices where
  /-- The document; an empty path stands for what is piped in. -/
  input : String := ""
  /-- Where the output goes; an empty path stands for the standard output. -/
  output : String := ""
  debug : Bool := false
  version : Bool := false
  precision : Option Int := none
  maxStackDepth : Option Int := none
  logLevel : Level := .info
  /-- Where the log goes besides the standard error; an empty path stands for nowhere. -/
  logFile : String := ""
deriving DecidableEq

/-- A flag with its value, if it has one. -/
structure FlagUse where
  flag : Flag
  value : Option String
deriving DecidableEq

/-- What is left to do after a flag has been taken. -/
inductive Taken
  /-- The help is shown, and nothing else is done. -/
  | help
  | further (choices : Choices)

namespace Choices

/-- The whole number that a flag is given. -/
def integerValue (flag : Flag) (value : String) : Except ArgumentFault Int :=
  match readInteger value.toList with
  | .ok n => .ok n
  | .error _ => .error (.notInteger flag value)

/-- Takes a flag. -/
def take (choices : Choices) (use : FlagUse) : Except ArgumentFault Taken :=
  let value := use.value.getD ""
  match use.flag with
  | .help => .ok .help
  | .debug => .ok (.further { choices with debug := true })
  | .version => .ok (.further { choices with version := true })
  | .output => .ok (.further { choices with output := value })
  | .logFile => .ok (.further { choices with logFile := value })
  | .precision => do
    let n ← integerValue .precision value
    return .further { choices with precision := some n }
  | .maxStackDepth => do
    let n ← integerValue .maxStackDepth value
    return .further { choices with maxStackDepth := some n }
  | .logLevel =>
    if Flag.levelNames.contains value then
      .ok (.further { choices with logLevel := Level.ofName value })
    else .error (.notLevel .logLevel value)

end Choices

end EquationText
