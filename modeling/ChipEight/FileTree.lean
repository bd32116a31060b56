import ChipEight.Fault

/-!
# File trees

Files and directories with a working directory among them, and what a path leads to. A
path is a series of names with slashes between them, which are followed one by one from
the working directory, or from the root if a slash stands in front. An empty name and a
dot stay, two dots go up, and every other name leads down. The limits on the length of a
name and of a path are in bytes of UTF-8.
-/

namespace ChipEight

/-- A tree of files. Every path here is a list of names from the root on. -/
structure FileTree where
  /-- The files and their contents. -/
  files : List (List String × ByteArray)
  /-- Directories; every directory above a file or above one of these exists too. -/
  directories : List (List String)
  /-- The directory from which a path is followed that does not begin at the root. -/
  working : List String

namespace FileTree

/-- The most bytes that a name may have. -/
def maxNameSize : Nat := 255

/-- The most bytes that a path may have. -/
def maxPathSize : Nat := 4095

/-- What the names followed so far lead to. -/
inductive Place
  /-- A directory. -/
  | directory (names : List String)
  /-- A file. -/
  | file (content : ByteArray)

/-- The names in a path. -/
def names (path : String) : List String := path.splitOn "/"

/-- Whether a directory has these names. -/
def hasDirectory (t : FileTree) (names : List String) : Bool :=
  (t.working :: t.directories ++ t.files.map (·.1.dropLast)).any (names.isPrefixOf ·)

/-- What lies at a list of names. -/
def at? (t : FileTree) (names : List String) : Option Place :=
  match t.files.lookup names with
  | some content => some (.file content)
  | none => if t.hasDirectory names then some (.directory names) else none

/-- Follow a name. Nothing follows the name of a file, not even an empty one, and the root is above
itself. -/
def follow (t : FileTree) (place : Place) (name : String) : Except FileFault Place :=
  match place with
  | .file _ => .error .notDirectory
  | .directory names =>
    if name = "" ∨ name = "." then .ok place
    else if name = ".." then .ok (.directory names.dropLast)
    else if maxNameSize < name.utf8ByteSize then .error .nameTooLong
    else
      match t.at? (names ++ [name]) with
      | some next => .ok next
      | none => .error .missing

/-- The content of the file that a path leads to. The empty path leads nowhere. -/
def read (t : FileTree) (path : String) : Except FileFault ByteArray :=
  if path = "" then .error .missing
  else if maxPathSize < path.utf8ByteSize then .error .nameTooLong
  else do
    let names := names path
    let start := if names.head? = some "" then [] else t.working
    match ← names.foldlM t.follow (.directory start) with
    | .file content => .ok content
    | .directory _ => .error .directory

@[simp] theorem follow_file (t : FileTree) (content : ByteArray) (name : String) :
    t.follow (.file content) name = .error .notDirectory := rfl

@[simp] theorem follow_dot (t : FileTree) (names : List String) :
    t.follow (.directory names) "." = .ok (.directory names) := by
  simp [follow]

@[simp] theorem read_empty (t : FileTree) : t.read "" = .error .missing := rfl

end FileTree

end ChipEight
