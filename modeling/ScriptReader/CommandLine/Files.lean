import ScriptReader.Text.Lines

/-! # Files

A directory with files in it, and the reading of a text by a path. A path is followed part by part:
an empty part and `.` stay, `..` goes up, and a name goes down. Nothing is known of what lies beyond
the directory, apart from the directories above it.
-/

namespace ScriptReader.CommandLine

/-- Why a file could not be read. -/
inductive ReadFault where
  | missing
  | isDirectory
  | notDirectory
  | notText
deriving DecidableEq, Repr

def ReadFault.message : ReadFault → String
  | .missing => "No such file or directory (os error 2)"
  | .isDirectory => "Is a directory (os error 21)"
  | .notDirectory => "Not a directory (os error 20)"
  | .notText => "stream did not contain valid UTF-8"

/-- Files by their paths inside the directory, each path as the list of its parts. -/
structure Files where
  entries : List (List String × List UInt8) := []
deriving DecidableEq, Repr

namespace Files

/-- The names along a path. -/
def parts (path : String) : List String :=
  (path.splitOn "/").filter fun name => name ≠ "" ∧ name ≠ "."

/-- Adds a file at a path. -/
def add (files : Files) (path : String) (content : List UInt8) : Files :=
  ⟨(parts path, content) :: files.entries⟩

/-- Whether a file lies somewhere below a path. -/
def isDirectory (files : Files) (place : List String) : Bool :=
  files.entries.any fun entry => place.isPrefixOf entry.1 && place.length < entry.1.length

/-- Where a path leads to. -/
inductive Place where
  | inside (place : List String)
  | beyond
  | file (content : List UInt8)
deriving DecidableEq, Repr

/-- Goes up from a directory. -/
def up : List String → Place
  | [] => .beyond
  | place => .inside place.dropLast

/-- Goes down from a directory by a name. -/
def down (files : Files) (place : List String) (name : String) : Except ReadFault Place :=
  let place := place ++ [name]
  match files.entries.lookup place with
  | some content => .ok (.file content)
  | none => if files.isDirectory place then .ok (.inside place) else .error .missing

/-- Follows one part of a path. -/
def walk (files : Files) : Place → String → Except ReadFault Place
  | .file _, _ => .error .notDirectory
  | place, "" => .ok place
  | place, "." => .ok place
  | .inside place, ".." => .ok (up place)
  | .inside place, name => files.down place name
  | .beyond, ".." => .ok .beyond
  | .beyond, _ => .error .missing

/-- Where a path leads to; one that begins with a slash begins beyond the directory. -/
def follow (files : Files) (path : String) : Except ReadFault Place :=
  match path.splitOn "/" with
  | "" :: rest => rest.foldlM files.walk .beyond
  | names => names.foldlM files.walk (.inside [])

/-- The text of the file that a path leads to. -/
def read (files : Files) (path : String) : Except ReadFault String := do
  match ← files.follow path with
  | .file content =>
    match decode? content with
    | some text => .ok text
    | none => .error .notText
  | _ => .error .isDirectory

end Files

end ScriptReader.CommandLine
