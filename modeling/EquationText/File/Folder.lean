import EquationText.File.Access

/-! # Folders in memory

A folder with files and folders in it, as a value. Paths are relative to it; whatever lies outside
does not exist.
-/

namespace EquationText

/-- The names that lead from a folder to a file or a folder in it. -/
abbrev Path : Type := List String

/-- What a folder holds. -/
structure Folder where
  folders : List Path
  files : List (Path × ByteArray)

namespace Folder

/-- The contents of a file. -/
def contents? (folder : Folder) (path : Path) : Option ByteArray :=
  (folder.files.find? fun file => file.1 = path).map (·.2)

/-- Whether the path leads to a folder. -/
def isFolder (folder : Folder) (path : Path) : Bool := path.isEmpty || folder.folders.contains path

/-- Follows the names of a path from the folder `here`. -/
def follow (folder : Folder) (here : Path) : List String → Except AccessFault Path
  | [] => .ok here
  | name :: rest =>
    if folder.isFolder here then
      if name = "" || name = "." then follow folder here rest
      else if name = ".." then
        follow folder (if here.isEmpty then [".."] else here.dropLast) rest
      else follow folder (here ++ [name]) rest
    else if (folder.contents? here).isSome then .error .notFolder
    else .error .missing

/-- The path that a text stands for; paths from the root lead outside. -/
def locate (folder : Folder) (text : String) : Except AccessFault Path :=
  let names := text.splitOn "/"
  if text = "" then .error .missing
  else if names.all (· = "") then .error .isFolder
  else if names.head? = some "" then .error .missing
  else folder.follow [] names

/-- The bytes of a file. -/
def read (folder : Folder) (text : String) : Except AccessFault ByteArray := do
  let path ← folder.locate text
  if folder.isFolder path then throw .isFolder
  match folder.contents? path with
  | some bytes => return bytes
  | none => throw .missing

/-- The folder with the contents of one file replaced; a new file comes last. -/
def place (folder : Folder) (path : Path) (bytes : ByteArray) : Folder :=
  if (folder.contents? path).isSome then
    { folder with files := folder.files.map fun file => if file.1 = path then (path, bytes) else file }
  else { folder with files := folder.files ++ [(path, bytes)] }

/-- Changes the contents of a file, which is made if there is none. -/
def update (folder : Folder) (text : String) (change : ByteArray → ByteArray) :
    Except AccessFault Folder := do
  let path ← folder.locate text
  if folder.isFolder path then throw .isFolder
  return folder.place path (change ((folder.contents? path).getD .empty))

/-- The access to the files of a folder, where `piped` is what is piped in. -/
def access (piped : ByteArray) : FileAccess (StateM Folder) where
  read text := do return (← get).read text
  write text content := do
    match (← get).update text fun _ => content.toUTF8 with
    | .ok changed => do
      set changed
      return .ok ()
    | .error fault => return .error fault
  append text content := do
    match (← get).update text fun bytes => bytes ++ content.toUTF8 with
    | .ok changed => do
      set changed
      return .ok ()
    | .error fault => return .error fault
  standardInput := pure piped

end Folder

end EquationText
