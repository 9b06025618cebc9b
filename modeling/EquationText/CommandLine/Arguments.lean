import EquationText.CommandLine.Flag

/-! # Reading the arguments of a command

Arguments are sorted first into flags and operands, and then taken from left to right. A flag may be
abbreviated as long as it stays the only one, its value may be attached to it or follow it, and
letters may be joined. The first operand is the input; what nothing takes is refused at the end.
-/

namespace EquationText

/-- What an argument is. -/
inductive Argument
  /-- Letters joined after one dash: the first flag and what follows its letter. -/
  | letters (flag : Flag) (following : List Char)
  /-- A word after two dashes with the value attached to it. -/
  | word (flag : Flag) (value : Option String)
  /-- A flag that the program does not have. -/
  | unknown (text : String)
  | operand (text : String)
  /-- The mark after which everything is an operand. -/
  | separator
deriving DecidableEq

namespace Argument

/-- The mark after which everything is an operand. -/
def separatorText : String := "--"

/-- Whether the argument is written as a flag. -/
def isFlag : Argument → Bool
  | letters _ _ | word _ _ | unknown _ => true
  | operand _ | separator => false

/-- The text of an argument that is no flag. -/
def text : Argument → String
  | unknown text | operand text => text
  | separator => separatorText
  | letters _ _ | word _ _ => ""

/-- Splits a text at its first equals sign. -/
def splitAtEquals (cs : List Char) : String × Option String :=
  let name := String.ofList (cs.takeWhile (· ≠ '='))
  match cs.dropWhile (· ≠ '=') with
  | [] => (name, none)
  | _ :: value => (name, some (String.ofList value))

/-- Whether what follows a dash makes the argument a negative number: digits, or a point with digits
after it; a line feed may follow. -/
def isNegativeNumber (cs : List Char) : Bool :=
  let body := if cs.getLast? = some '\n' then cs.dropLast else cs
  match body.dropWhile isDecimalDigit with
  | [] => !body.isEmpty
  | '.' :: digits => !digits.isEmpty && digits.all isDecimalDigit
  | _ => false

/-- What an argument is that starts with a dash and is no flag of the program: a negative number and
a text with spaces are operands. -/
def withoutFlag (text : String) (afterDash : List Char) : Argument :=
  if isNegativeNumber afterDash || text.toList.contains ' ' then .operand text else .unknown text

/-- What an argument in front of the separator is. -/
def classify (text : String) : Except ArgumentFault Argument :=
  match text.toList with
  | '-' :: '-' :: _ =>
    let (name, value) := splitAtEquals text.toList
    match Flag.ofText name with
    | [] => .ok (withoutFlag text (text.toList.drop 1))
    | [(flag, _)] => .ok (.word flag value)
    | candidates => .error (.ambiguous text (candidates.map (·.2)))
  | '-' :: letter :: following =>
    match Flag.ofLetter? letter with
    | some flag => .ok (.letters flag following)
    | none => .ok (withoutFlag text (letter :: following))
  | _ => .ok (.operand text)

/-- What the arguments are. -/
def classifyAll : List String → Except ArgumentFault (List Argument)
  | [] => .ok []
  | text :: rest =>
    if text = separatorText then .ok (.separator :: rest.map .operand)
    else do
      let first ← classify text
      let others ← classifyAll rest
      return first :: others

end Argument

/-- The flags that an argument uses. -/
structure Uses where
  flags : List FlagUse
  /-- Whether the last flag takes the next argument as its value. -/
  takesNext : Bool
  /-- The letters that are no flags, with a dash. -/
  unknown : Option String

namespace Uses

/-- The use of a flag to which nothing is attached; `next` is the argument after it if that can be a
value. -/
def alone (next : Option String) (flag : Flag) : Except ArgumentFault Uses :=
  if flag.takesValue then
    match next with
    | some value => .ok ⟨[⟨flag, some value⟩], true, none⟩
    | none => .error (.valueMissing flag)
  else .ok ⟨[⟨flag, none⟩], false, none⟩

/-- The use of a flag to which a value is attached. -/
def withValue (flag : Flag) (value : String) : Except ArgumentFault Uses :=
  if flag.takesValue then .ok ⟨[⟨flag, some value⟩], false, none⟩
  else .error (.valueIgnored flag value)

/-- The uses of joined letters: `flag` and what follows its letter. -/
def ofLetters (next : Option String) (flag : Flag) : List Char → Except ArgumentFault Uses
  | [] => alone next flag
  | letter :: rest =>
    if letter = '=' then withValue flag (String.ofList rest)
    else if flag.takesValue || letter = '-' then withValue flag (String.ofList (letter :: rest))
    else
      match Flag.ofLetter? letter with
      | none => .ok ⟨[⟨flag, none⟩], false, some (String.ofList ('-' :: letter :: rest))⟩
      | some following => do
        let more ← ofLetters next following rest
        return { more with flags := ⟨flag, none⟩ :: more.flags }

end Uses

/-- What a command asks for. -/
inductive Request
  | help
  | run (choices : Choices)

/-- How far the arguments have been taken. -/
structure Progress where
  choices : Choices
  /-- Whether the input is settled. -/
  inputRead : Bool
  /-- The arguments that nothing takes, the last one first. -/
  refused : List String

namespace Progress

def start : Progress := ⟨{}, false, []⟩

/-- The request when all arguments have been taken. -/
def finish (progress : Progress) : Except ArgumentFault Request :=
  if progress.refused.isEmpty then .ok (.run progress.choices)
  else .error (.unrecognized progress.refused.reverse)

/-- Refuses an argument. -/
def refuse (text : String) (progress : Progress) : Progress :=
  { progress with refused := text :: progress.refused }

/-- Settles the input. -/
def withInput (text : String) (progress : Progress) : Progress :=
  { progress with choices := { progress.choices with input := text }, inputRead := true }

/-- Takes the flags of one argument. -/
def takeFlags (progress : Progress) : List FlagUse → Except ArgumentFault (Option Progress)
  | [] => .ok (some progress)
  | use :: rest => do
    match ← progress.choices.take use with
    | .help => return none
    | .further choices => takeFlags { progress with choices } rest

/-- The value that the next argument can be for a flag. -/
def nextValue? : List Argument → Option String
  | .operand value :: _ => some value
  | _ => none

/-- The flags that an argument uses when `rest` follows it; an argument that is no flag uses none. -/
def usesOf (rest : List Argument) : Argument → Except ArgumentFault Uses
  | .letters flag following => Uses.ofLetters (nextValue? rest) flag following
  | .word flag (some value) => Uses.withValue flag value
  | .word flag none => Uses.alone (nextValue? rest) flag
  | .unknown text => .ok ⟨[], false, some text⟩
  | .operand _ | .separator => .ok ⟨[], false, none⟩

/-- Takes the first of some operands as the input, and gives the number of arguments that this takes:
the separator goes with the operand at its side. -/
def takeInput (progress : Progress) : List Argument → Progress × Nat
  | .operand text :: .separator :: _ | .separator :: .operand text :: _ =>
    (progress.withInput text, 2)
  | .operand text :: _ => (progress.withInput text, 1)
  | _ => ({ progress with inputRead := true }, 1)

/-- Takes arguments from left to right. -/
def takeAll (progress : Progress) : List Argument → Except ArgumentFault Request
  | [] => progress.finish
  | argument :: rest =>
    if argument.isFlag then do
      let uses ← usesOf rest argument
      match ← progress.takeFlags uses.flags with
      | none => return .help
      | some later =>
        takeAll (uses.unknown.elim later later.refuse) (rest.drop (if uses.takesNext then 1 else 0))
    else if progress.inputRead then takeAll (progress.refuse argument.text) rest
    else
      let (later, taken) := progress.takeInput (argument :: rest)
      takeAll later (rest.drop (taken - 1))
termination_by arguments => arguments.length
decreasing_by all_goals simp only [List.length_cons, List.length_drop]; omega

end Progress

/-- What the arguments of a command ask for. -/
def readArguments (arguments : List String) : Except ArgumentFault Request := do
  let sorted ← Argument.classifyAll arguments
  Progress.start.takeAll sorted

end EquationText
