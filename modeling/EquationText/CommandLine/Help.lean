import EquationText.CommandLine.Flag
import EquationText.Settings

/-! # The help of the command line

The usage and the help, laid out for a terminal of eighty columns.
-/

namespace EquationText

/-- The number of columns that the help fills. -/
def helpWidth : Nat := 78

/-- The column at which the explanations of flags start. -/
def explanationColumn : Nat := 24

/-- Puts words on lines of a given width, where `line` is the line that is being filled. A word that
fits no line is broken where the line ends. -/
def fillWords (width : Nat) (line : List Char) : List (List Char) → List (List Char)
  | [] => if line.isEmpty then [] else [line]
  | word :: rest =>
    let joined := if line.isEmpty then word else line ++ ' ' :: word
    if joined.length ≤ width then fillWords width joined rest
    else if width < word.length && line.length + 1 < width then
      joined.take width :: fillWords width [] (joined.drop width :: rest)
    else line :: fillWords width word rest
termination_by words => (words.length, (words.headD []).length)
decreasing_by
  · exact Prod.Lex.left _ _ (Nat.lt_succ_self _)
  · rename_i _ fits
    simp only [Bool.and_eq_true, decide_eq_true_eq] at fits
    refine Prod.Lex.right _ ?_
    simp only [List.headD_cons, List.length_drop]
    split
    · omega
    · simp only [List.length_append, List.length_cons]
      omega
  · exact Prod.Lex.left _ _ (Nat.lt_succ_self _)

/-- The lines of a text whose words are separated by single spaces. -/
def fillText (width : Nat) (text : String) : List String :=
  (fillWords width [] (blankWords text.toList)).map String.ofList

/-- Puts parts on lines of the width of the help; every line but the first is indented, and `line` is
the line that is being filled. -/
def fillParts (indent : String) (line : String) : List String → List String
  | [] => [line]
  | part :: rest =>
    if helpWidth < line.length + 1 + part.length then
      line :: fillParts indent (indent ++ part) rest
    else fillParts indent (line ++ " " ++ part) rest

namespace Flag

/-- A spelling of a flag with the name of its value. -/
def withValueName (flag : Flag) (spelling : String) : String :=
  match flag.valueName? with
  | none => spelling
  | some name => s!"{spelling} {name}"

/-- The flag as it stands in the usage. -/
def inUsage (flag : Flag) : String :=
  let spelling := flag.withValueName (flag.spellings.headD "")
  s!"[{spelling}]"

/-- The flag as it stands in front of its explanation. -/
def heading (flag : Flag) : String := ", ".intercalate (flag.spellings.map flag.withValueName)

/-- What a flag is for. -/
def explanation (settings : Settings) : Flag → String
  | help => "show this help message and exit"
  | output => "Output to file (default is standard output)"
  | debug => "Print equation debugging information"
  | version => "Print version information"
  | precision => "Significant digits of substituted values"
  | maxStackDepth => s!"Operand stack limit (default: {settings.maxStackDepth})"
  | logLevel => "Set logging level"
  | logFile => "Write logs to file"

end Flag

/-- The name of the operand. -/
def inputName : String := "input"

/-- The usage of the program. -/
def usageText : String :=
  let opening := s!"usage: {programName}"
  let indent := String.ofList (List.replicate (opening.length + 1) ' ')
  let lines := fillParts indent opening (Flag.all.map Flag.inUsage) ++ [indent ++ s!"[{inputName}]"]
  "\n".intercalate lines ++ "\n"

/-- A heading with its explanation next to it, or under it where the heading is too long. -/
def explained (heading explanation : String) : String :=
  let indent := String.ofList (List.replicate explanationColumn ' ')
  let opening := "  " ++ heading
  let lines := fillText (helpWidth - explanationColumn) explanation
  let filled := opening ++ String.ofList (List.replicate (explanationColumn - opening.length) ' ')
  let shown :=
    if opening.length + 2 ≤ explanationColumn then
      (filled ++ lines.headD "") :: (lines.drop 1).map (indent ++ ·)
    else opening :: lines.map (indent ++ ·)
  "\n".intercalate shown ++ "\n"

/-- What the program is for. -/
def purposeText : String :=
  "Solve the linear equations embedded in a document and substitute the solved values into its text."

/-- The help of the program. -/
def helpText (settings : Settings) : String :=
  let purpose := "\n".intercalate (fillText helpWidth purposeText)
  let flags := Flag.all.map fun flag => explained flag.heading (flag.explanation settings)
  usageText ++ "\n" ++ purpose ++ "\n\npositional arguments:\n" ++
    explained inputName "Input file (default is standard input)" ++ "\noptions:\n" ++
    String.join flags

end EquationText
