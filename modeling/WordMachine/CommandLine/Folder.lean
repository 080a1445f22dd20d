/-!
# Folders

Files in a folder, by name, and what the system says of a path that leads to none of them. A path
is followed part by part; nothing is known of the folders around this one but that they are there.
-/

namespace WordMachine.CommandLine

/-- Why a file cannot be read. -/
inductive FileError
  | notFound
  | notADirectory
  | isADirectory
  | nameTooLong
deriving DecidableEq, Repr

namespace FileError

/-- The number that the system gives an error. -/
def number : FileError → Nat
  | notFound      => 2
  | notADirectory => 20
  | isADirectory  => 21
  | nameTooLong   => 36

/-- The words of the system for an error. -/
def message : FileError → String
  | notFound      => "No such file or directory"
  | notADirectory => "Not a directory"
  | isADirectory  => "Is a directory"
  | nameTooLong   => "File name too long"

/-- A message of the system with its number. -/
def numbered (message : String) (number : Nat) : String :=
  message ++ " (os error " ++ toString number ++ ")"

def text (e : FileError) : String := numbered e.message e.number

/-- The error with a number. -/
def ofNumber? (n : Nat) : Option FileError :=
  [notFound, notADirectory, isADirectory, nameTooLong].find? fun e => e.number = n

end FileError

/-- A folder without folders in it. -/
structure Folder where
  files : List (String × List UInt8)

namespace Folder

/-- Most bytes in the name of a file. -/
def longestName : Nat := 255

/-- Most bytes in a path. -/
def longestPath : Nat := 4095

/-- What a path leads to. -/
inductive Node
  /-- The folder itself. -/
  | folder
  /-- One of the folders around it, in which no names are known. -/
  | outside
  | file (bytes : List UInt8)
deriving DecidableEq

/-- What a name stands for. -/
def find (folder : Folder) : Node → String → Except FileError Node
  | .file _, _    => .error .notADirectory
  | .outside, _   => .error .notFound
  | .folder, name =>
    match folder.files.lookup name with
    | some bytes => .ok (.file bytes)
    | none       => .error .notFound

/-- Go one part of a path further: stay, go out, or go to what has the name. -/
def enter (folder : Folder) : Node → String → Except FileError Node
  | .file _, _ => .error .notADirectory
  | node, ""   => .ok node
  | node, "."  => .ok node
  | _, ".."    => .ok .outside
  | node, name =>
    if longestName < name.utf8ByteSize then .error .nameTooLong else folder.find node name

/-- Where a path starts: outside if it begins with a slash, else in the folder. -/
def start (path : String) : Node :=
  if path.startsWith "/" then .outside else .folder

/-- Read the file at a path. -/
def read (folder : Folder) (path : String) : Except FileError (List UInt8) := do
  if path.isEmpty then .error .notFound
  else if longestPath < path.utf8ByteSize then .error .nameTooLong
  else
    match ← (path.splitOn "/").foldlM folder.enter (start path) with
    | .file bytes        => .ok bytes
    | .folder | .outside => .error .isADirectory

end Folder

end WordMachine.CommandLine
