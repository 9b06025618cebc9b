import EquationText.CommandLine.Run

/-! # The command

The program on the files of the system: its arguments, its environment and its streams.
-/

namespace EquationText

/-- Why the system refused a file. -/
def accessFaultOf (error : IO.Error) : AccessFault :=
  match error with
  | .noFileOrDirectory _ _ _ => .missing
  | .inappropriateType _ number reason => .other number.toNat reason
  | .permissionDenied _ number reason => .other number.toNat reason
  | .resourceExhausted _ number reason => .other number.toNat reason
  | .invalidArgument _ number reason => .other number.toNat reason
  | other => .other 5 (toString other)

/-- An action on a file with the refusal of the system as its result. -/
def guarded {α : Type} (action : IO α) : IO (Except AccessFault α) := do
  match ← action.toBaseIO with
  | .ok a => return .ok a
  | .error error => return .error (accessFaultOf error)

/-- The access to the files of the system. -/
def systemFiles : FileAccess IO where
  read path := guarded (IO.FS.readBinFile path)
  write path text := guarded (IO.FS.writeFile path text)
  append path text := guarded do
    let handle ← IO.FS.Handle.mk path .append
    handle.putStr text
  standardInput := do
    let stream ← IO.getStdin
    let mut bytes := ByteArray.empty
    let mut unfinished := true
    while unfinished do
      let chunk ← stream.read 65536
      if chunk.isEmpty then unfinished := false else bytes := bytes ++ chunk
    return bytes

/-- The settings that the environment of the process asks for. -/
def environmentSettings : IO (Except Cause Settings) := do
  let mut found : List (String × String) := []
  for name in Settings.variableNames do
    match ← IO.getEnv name with
    | some value => found := (name, value) :: found
    | none => pure ()
  let settled := found
  return Settings.ofEnvironment fun name => valueOf? name settled

end EquationText

open EquationText

/-- Runs the command on the arguments of the process. -/
def main (arguments : List String) : IO UInt32 := do
  match ← environmentSettings with
  | .error cause => do
    IO.eprintln cause.message
    return 1
  | .ok settings => do
    let outcome ← systemFiles.runCommand settings arguments
    IO.print outcome.standardOutput
    IO.eprint outcome.standardError
    match outcome.ending with
    | .exit code => return code.toUInt32
    | .escaped escape => do
      IO.eprintln escape.message
      return 1
