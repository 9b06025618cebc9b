import EquationText.Text.Encoding

/-! # Access to files

What the program needs from the files around it, for any kind of effects: the bytes of a file, a file
with a given text, a text at the end of a file, and the bytes that are piped in.
-/

namespace EquationText

/-- Why a file cannot be used. -/
inductive AccessFault
  | missing
  | isFolder
  | notFolder
  | other (number : Nat) (reason : String)
deriving DecidableEq

namespace AccessFault

/-- The number under which operating systems report the fault. -/
def number : AccessFault → Nat
  | missing => 2
  | notFolder => 20
  | isFolder => 21
  | other number _ => number

def message : AccessFault → String
  | missing => "No such file or directory"
  | notFolder => "Not a directory"
  | isFolder => "Is a directory"
  | other _ reason => reason

/-- The text of the fault with its number and the path. -/
def messageFor (path : String) (fault : AccessFault) : String :=
  s!"[Errno {fault.number}] {fault.message}: {quoted path}"

end AccessFault

/-- The access to files by effects of the kind `m`. -/
structure FileAccess (m : Type → Type) where
  /-- The bytes of a file. -/
  read : String → m (Except AccessFault ByteArray)
  /-- Gives a file a text in place of what it held. -/
  write : String → String → m (Except AccessFault Unit)
  /-- Adds a text at the end of a file. -/
  append : String → String → m (Except AccessFault Unit)
  /-- The bytes that are piped in. -/
  standardInput : m ByteArray

/-- Why a document cannot be read. -/
inductive DocumentFault
  | access (fault : AccessFault)
  | encoding (fault : EncodingFault)
deriving DecidableEq

namespace FileAccess

variable {m : Type → Type} [Monad m] (files : FileAccess m)

/-- The text of bytes that were read. -/
def documentOf : Except AccessFault ByteArray → Except DocumentFault String
  | .error fault => .error (.access fault)
  | .ok bytes => (decodeText bytes).mapError .encoding

/-- The text of the file at a path. -/
def readDocument (path : String) : m (Except DocumentFault String) := do
  let bytes ← files.read path
  return documentOf bytes

/-- The text that is piped in. -/
def readStandardInput : m (Except DocumentFault String) := do
  let bytes ← files.standardInput
  return documentOf (.ok bytes)

end FileAccess

end EquationText
