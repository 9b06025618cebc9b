import EquationText.Fault
import EquationText.Numeric.Shortest

/-! # Settings

The limits, the tolerance and the marks that govern a run. Each has a default and can be overridden
by a text from the environment.
-/

namespace EquationText

/-- What can be set for a run. -/
structure Settings where
  /-- The number of values that the operand stack may hold. -/
  maxStackDepth : Int := 100
  /-- The number of nested levels that an expression may have. -/
  maxNesting : Int := 100
  /-- The number of nested levels that a reader has room for, which it finds out by running out of it: a property of the
  machine, and more than `maxNesting` allows unless that is raised. -/
  readerRoom : Nat := 1000
  /-- Magnitudes below this double count as zero. -/
  tolerance : Double := .ofDecimal 1 (-6)
  /-- The number of significant digits of printed values. -/
  precision : Int := 14
  /-- What opens a block of equations. -/
  openMark : String := "\x7b\x7b"
  /-- What closes a block of equations. -/
  closeMark : String := "\x7d\x7d"
  /-- What starts a command. -/
  commandMark : String := "@"
  /-- The word that stands for an unnamed unknown. -/
  anonymousWord : String := "whatever"
deriving DecidableEq

namespace Settings

/-- The rational below which magnitudes count as zero. -/
def cutoff (settings : Settings) : Rat := settings.tolerance.cutoff

/-- The number of nested levels that are read. -/
def nestingLevels (settings : Settings) : Nat := min settings.maxNesting.toNat settings.readerRoom

/-- The fault of an expression that is nested too deeply: it names the limit that was set when that limit is the
one that was passed, and no limit when the reader ran out of room before. -/
def nestingFault (settings : Settings) : ReadingFault :=
  .tooDeep (if settings.maxNesting ≤ settings.readerRoom then some settings.maxNesting else none)

/-- A whole number from the environment, or its default. -/
def integerSetting (text : Option String) (default : Int) : Except Cause Int :=
  match text with
  | none => .ok default
  | some given =>
    match readInteger given.toList with
    | .ok value => .ok value
    | .error fault => .error (.usage (.integerText given fault))

/-- A double from the environment, or its default. -/
def doubleSetting (text : Option String) (default : Double) : Except Cause Double :=
  match text with
  | none => .ok default
  | some given =>
    match readDouble? given.toList with
    | some value => .ok value
    | none => .error (.usage (.doubleText given))

/-- The names of the variables that override settings. -/
def variableNames : List String := [
  "LINEQPP_MAX_STACK_DEPTH", "LINEQPP_MAX_EXPRESSION_DEPTH", "LINEQPP_ZERO_TOLERANCE",
  "LINEQPP_OUTPUT_PRECISION", "LINEQPP_OPEN_DELIM", "LINEQPP_CLOSE_DELIM",
  "LINEQPP_COMMAND_PREFIX", "LINEQPP_ANONYMOUS_KEYWORD"]

/-- The settings of an environment; the numbers are read in a fixed order, and the first that cannot
be read is the fault. -/
def ofEnvironment (lookup : String → Option String) : Except Cause Settings := do
  let standard : Settings := {}
  let maxStackDepth ← integerSetting (lookup "LINEQPP_MAX_STACK_DEPTH") standard.maxStackDepth
  let maxNesting ← integerSetting (lookup "LINEQPP_MAX_EXPRESSION_DEPTH") standard.maxNesting
  let tolerance ← doubleSetting (lookup "LINEQPP_ZERO_TOLERANCE") standard.tolerance
  let precision ← integerSetting (lookup "LINEQPP_OUTPUT_PRECISION") standard.precision
  return {
    maxStackDepth, maxNesting, tolerance, precision
    openMark := (lookup "LINEQPP_OPEN_DELIM").getD standard.openMark
    closeMark := (lookup "LINEQPP_CLOSE_DELIM").getD standard.closeMark
    commandMark := (lookup "LINEQPP_COMMAND_PREFIX").getD standard.commandMark
    anonymousWord := (lookup "LINEQPP_ANONYMOUS_KEYWORD").getD standard.anonymousWord }

end Settings

end EquationText
