/-!
# Files

The files and directories that a run can see. A path is a list of names from the working directory
on, and `Files.locate` follows a path as it is written, through directories only.

Two places are the same only if they have the same names. In a working directory `/w` the paths `a`,
`../w/a` and `/w/a` lead to three places with entries of their own: the directories around the
working directory have no names here. There are no symbolic links and no permissions.
-/

namespace SchemaCompiler.Command

/-- What can stand at a path: a file with its bytes, or a directory. -/
inductive Entry where
  | file (content : ByteArray)
  | directory

/-- Why a file cannot be read or written: there is nothing at the path, a name within the path is a
file, there is a directory at the path, or the bytes are no UTF-8 text. -/
inductive FileError where
  | notFound
  | notDirectory
  | isDirectory
  | invalidText
deriving DecidableEq, Repr

/-- An error as the operating system reports it, with its number where it has one. -/
def FileError.details : FileError → String
  | notFound => "Io(Os \x7b code: 2, kind: NotFound, message: \"No such file or directory\" \x7d)"
  | notDirectory => "Io(Os \x7b code: 20, kind: NotADirectory, message: \"Not a directory\" \x7d)"
  | isDirectory => "Io(Os \x7b code: 21, kind: IsADirectory, message: \"Is a directory\" \x7d)"
  | invalidText =>
    "Io(Error \x7b kind: InvalidData, message: \"stream did not contain valid UTF-8\" \x7d)"

/-- The names that lead to a file or directory from the working directory on. -/
abbrev Place := List String

namespace Place

/-- Whether a place is the working directory or one of the directories around it. -/
def isAround (place : Place) : Bool :=
  place.all (· == "..")

/-- The place above a place. Above the working directory there are more directories, and above the
root there is the root. -/
def parent (place : Place) : Place :=
  if place.isAround then place ++ [".."]
  else if place = ["/"] then place
  else place.dropLast

/-- The place that a name leads to from a place. An empty name, which stands between two slashes,
leads nowhere else. -/
def step (place : Place) (name : String) : Place :=
  if name = "" ∨ name = "." then place
  else if name = ".." then place.parent
  else if name = "/" then ["/"]
  else place ++ [name]

end Place

/-- The names of a path as it is written. A path from the root starts with the name `/`. -/
def namesOf (path : String) : List String :=
  match path.splitOn "/" with
  | "" :: names => if path = "" then [] else "/" :: names
  | names => names

/-- The files and directories of the working directory and around it, each at its place. -/
structure Files where
  entries : List (Place × Entry)

namespace Files

/-- What stands at a place. The working directory and the directories around it are always there. -/
def get? (files : Files) (place : Place) : Option Entry :=
  if place.isAround then some .directory else files.entries.lookup place

/-- The files with a new content at a place. -/
def set (files : Files) (place : Place) (content : ByteArray) : Files :=
  if (files.entries.lookup place).isSome then
    { entries := files.entries.map fun entry =>
        if entry.1 = place then (place, .file content) else entry }
  else { entries := files.entries ++ [(place, .file content)] }

/-- The place that names lead to from a place. Only the last name may lead to a file or to
nothing. -/
def follow (files : Files) (place : Place) : List String → Except FileError Place
  | [] => .ok place
  | name :: rest =>
    match files.get? (place.step name) with
    | some .directory => files.follow (place.step name) rest
    | some (.file _) => if rest.isEmpty then .ok (place.step name) else .error .notDirectory
    | none => if rest.isEmpty then .ok (place.step name) else .error .notFound

/-- The place that a path leads to. Only its last name may be missing. -/
def locate (files : Files) (path : String) : Except FileError Place :=
  files.follow [] (namesOf path)

/-- Whether a path leads to a file or a directory. -/
def isPresent (files : Files) (path : String) : Bool :=
  match files.locate path with
  | .ok place => (files.get? place).isSome
  | .error _ => false

/-- The text of the file that a path leads to. -/
def readText (files : Files) (path : String) : Except FileError String := do
  let place ← files.locate path
  match files.get? place with
  | none => .error .notFound
  | some .directory => .error .isDirectory
  | some (.file content) =>
    match String.fromUTF8? content with
    | some text => .ok text
    | none => .error .invalidText

/-- A path without the slashes at its end. -/
def withoutSlashes (path : String) : String :=
  String.ofList (path.toList.reverse.dropWhile (· == '/')).reverse

/-- The files after a text was written to the file that a path leads to, which may be new. A path
that ends in a slash cannot name a file. -/
def writeText (files : Files) (path : String) (text : String) : Except FileError Files := do
  let place ← files.locate (withoutSlashes path)
  if withoutSlashes path ≠ path then .error .isDirectory
  else
    match files.get? place with
    | some .directory => .error .isDirectory
    | some (.file _) | none => .ok (files.set place text.toUTF8)

end Files

end SchemaCompiler.Command
