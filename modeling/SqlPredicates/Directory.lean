/-!
# Files and paths

Commands read files by their paths, within a directory. A path is followed name by name: `.` stays
where it is, `..` goes up, and everything but the last name has to lead to a directory. An empty name
counts as `.`, so a slash at the end of a path asks for a directory, and slashes in a row count as one.

Of what lies outside of the directory only its own surroundings are known, and these are directories
without files.

## Main definitions

* `FileError`, `FileError.message` — why a file cannot be read
* `Files`, `Files.text` — what can be read by its path
* `Directory` — named files
* `Directory.follow`, `Directory.read` — where a path leads, and the file that is there
-/

namespace SqlPredicates

/-- Why a file cannot be read as a text. -/
inductive FileError where
  | missing
  | denied
  | notADirectory
  | isADirectory
  | nameTooLong
  | notText
  | other (reason : String)
  deriving DecidableEq, Repr

/-- The wording of a failed reading. -/
def FileError.message : FileError → String
  | missing => "No such file or directory (os error 2)"
  | denied => "Permission denied (os error 13)"
  | notADirectory => "Not a directory (os error 20)"
  | isADirectory => "Is a directory (os error 21)"
  | nameTooLong => "File name too long (os error 36)"
  | notText => "stream did not contain valid UTF-8"
  | other reason => reason

/-- The contents of files by their paths. -/
abbrev Files := String → Except FileError ByteArray

/-- The text of a file. -/
def Files.text (files : Files) (path : String) : Except FileError String :=
  match files path with
  | .error e => .error e
  | .ok bytes =>
    match String.fromUTF8? bytes with
    | some text => .ok text
    | none => .error .notText

/-! ### Paths -/

/-- The names between the slashes of a path. There is one more of them than there are slashes. -/
def pathNames : List Char → List (List Char)
  | [] => [[]]
  | c :: cs =>
    if c = '/' then [] :: pathNames cs
    else
      match pathNames cs with
      | [] => [[c]]
      | name :: names => (c :: name) :: names

/-- The greatest number of bytes in a name. -/
def maxNameBytes : Nat := 255

/-- The greatest number of bytes in a path. -/
def maxPathBytes : Nat := 4095

/-- A directory with files in it. A file is listed with the names that lead to it: those of the
directories it is in, and then its own. -/
structure Directory where
  files : List (List String × ByteArray)

namespace Directory

/-- The directory with files at the given paths. -/
def ofFiles (files : List (String × ByteArray)) : Directory :=
  ⟨files.map fun f => ((pathNames f.1.toList).map String.ofList, f.2)⟩

/-- Where a path has led to. -/
inductive Place where
  /-- A directory around this one. -/
  | outside
  /-- This directory, or one inside of it. -/
  | folder (names : List String)
  | file (content : ByteArray)

/-- What stands where names lead to: a file, or a directory on the way to one. -/
def place? (d : Directory) (names : List String) : Option Place :=
  match d.files.lookup names with
  | some content => some (.file content)
  | none => if d.files.any fun f => names.isPrefixOf f.1 then some (.folder names) else none

/-- Goes on by one name. -/
def step (d : Directory) (place : Place) (name : String) : Except FileError Place :=
  match place with
  | .file _ => .error .notADirectory
  | .outside =>
    if name = "" ∨ name = "." ∨ name = ".." then .ok .outside
    else if maxNameBytes < name.utf8ByteSize then .error .nameTooLong
    else .error .missing
  | .folder names =>
    if name = "" ∨ name = "." then .ok (.folder names)
    else if name = ".." then .ok (if names.isEmpty then .outside else .folder names.dropLast)
    else if maxNameBytes < name.utf8ByteSize then .error .nameTooLong
    else
      match d.place? (names ++ [name]) with
      | some next => .ok next
      | none => .error .missing

/-- Goes on by names, one after the other. -/
def steps (d : Directory) : Place → List String → Except FileError Place
  | place, [] => .ok place
  | place, name :: names => do
    let next ← d.step place name
    d.steps next names

/-- Where a path leads to. A path that begins with a slash starts outside. -/
def follow (d : Directory) (path : String) : Except FileError Place :=
  let start := if path.toList.head? = some '/' then .outside else .folder []
  d.steps start ((pathNames path.toList).map String.ofList)

/-- The file at a path. -/
def read (d : Directory) : Files := fun path =>
  if path.isEmpty then .error .missing
  else if maxPathBytes < path.utf8ByteSize then .error .nameTooLong
  else
    match d.follow path with
    | .error e => .error e
    | .ok (.file content) => .ok content
    | .ok _ => .error .isADirectory

end Directory

end SqlPredicates
