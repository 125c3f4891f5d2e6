import SchemaModules.Bucket.Basic
import SchemaModules.Path.Basic

/-!
# Buckets on disk

A directory of a file system is a tree of directories and regular files. Looking a path up in it
follows the names of the path one by one, and says what is in the way if there is no file at the
end. The system refuses a path that is too long as a whole before it follows any name. What is too
long depends on the system (`Limits`).
-/

namespace SchemaModules

/-- A regular file or a directory with what is in it, by name. -/
inductive FileTree where
  | file (content : Bytes)
  | directory (entries : List (String × FileTree))
  deriving Inhabited

namespace FileTree

/-- The directory with nothing in it. -/
def empty : FileTree := .directory []

/-- The entries of a directory; a regular file has none. -/
def entries : FileTree → List (String × FileTree)
  | .directory entries => entries
  | .file _ => []

/-- The tree with another put in where a list of names leads. Directories on the way are made as
needed; a directory that is there already stays if another is put there. -/
def put (t : FileTree) (names : List String) (added : FileTree) : FileTree :=
  match names with
  | [] =>
      match added with
      | .directory [] => .directory t.entries
      | _ => added
  | name :: rest =>
      match t.entries.lookup name with
      | some inner =>
          let changed := inner.put rest added
          .directory (t.entries.map fun e => if e.1 = name then (name, changed) else e)
      | none => .directory (t.entries ++ [(name, empty.put rest added)])

mutual

/-- The paths of the regular files in a tree, which itself lies at a path. -/
def filePaths (path : String) : FileTree → List String
  | .file _ => [path]
  | .directory entries => entryPaths path entries

/-- The paths of the regular files in the entries of a directory, which lies at a path. -/
def entryPaths (path : String) : List (String × FileTree) → List String
  | [] => []
  | (name, t) :: entries =>
      t.filePaths (if path = "" then name else path ++ "/" ++ name) ++ entryPaths path entries

end

/-- Why the system gives nothing at a path. -/
inductive Obstacle where
  | missing
  | notDirectory
  | isDirectory
  | nameTooLong
  | nulInName
  deriving DecidableEq, Repr

/-- How the system words an obstacle. -/
def Obstacle.text : Obstacle → String
  | .missing => "No such file or directory (os error 2)"
  | .notDirectory => "Not a directory (os error 20)"
  | .isDirectory => "Is a directory (os error 21)"
  | .nameTooLong => "File name too long (os error 36)"
  | .nulInName => "file name contained an unexpected NUL byte"

/-- How many bytes a system admits in the name of an entry, and in a whole path from the top of the
file system. A system may set no bound. -/
structure Limits where
  nameSize : Option Nat
  pathSize : Option Nat

namespace Limits

/-- Whether a system admits the name of an entry. -/
def admitsName (limits : Limits) (name : String) : Bool :=
  limits.nameSize.all (name.utf8ByteSize ≤ ·)

/-- Whether a system admits a path below a root, whose own path has a number of bytes. -/
def admitsPath (limits : Limits) (rootSize : Nat) (path : String) : Bool :=
  limits.pathSize.all (rootSize + 1 + path.utf8ByteSize ≤ ·)

/-- No bounds. -/
def unbounded : Limits := ⟨none, none⟩

/-- The bounds that systems usually set. -/
def usual : Limits := ⟨some 255, some 4095⟩

end Limits

/-- What is at the end of a list of names. -/
def resolve (limits : Limits) (t : FileTree) (names : List String) : Except Obstacle FileTree :=
  match names with
  | [] => .ok t
  | name :: rest =>
      match t with
      | .file _ => .error .notDirectory
      | .directory entries =>
          if !limits.admitsName name then .error .nameTooLong
          else match entries.lookup name with
            | none => .error .missing
            | some inner => inner.resolve limits rest

/-- The names that a valid path leads along. -/
def namesOf (path : String) : List String :=
  (Path.parse path).names.map String.ofList

/-- The content of the regular file at a valid path from a root, which may be missing or no directory.
The path of the root itself has a number of bytes. The system looks at the text of the whole path
before it follows it. -/
def readFile (limits : Limits) (rootSize : Nat) (root : Option FileTree) (path : String) :
    Except Obstacle Bytes :=
  if '\x00' ∈ path.toList then .error .nulInName
  else if !limits.admitsPath rootSize path then .error .nameTooLong
  else match root with
    | none => .error .missing
    | some (.file _) => .error .notDirectory
    | some (.directory entries) =>
        match resolve limits (.directory entries) (namesOf path) with
        | .error obstacle => .error obstacle
        | .ok (.directory _) => .error .isDirectory
        | .ok (.file content) => .ok content

/-- The directory at a place of a file system as a bucket; there may be none, or a regular file. The
path of the place is given as messages show it, and by the number of bytes that the system counts. -/
def bucketUnder (limits : Limits) (rootPath : String) (rootSize : Nat) (root : Option FileTree) :
    Bucket where
  contains path :=
    match Path.validate path with
    | .ok inside => (readFile limits rootSize root inside).isOk
    | .error _ => false
  read path := do
    let inside ← (Path.validate path).mapError .invalidPath
    match readFile limits rootSize root inside with
    | .ok content => return content
    | .error .missing => throw (.fileNotFound path)
    | .error obstacle => throw (.storage (rootPath ++ "/" ++ inside) obstacle.text)
  paths :=
    match root with
    | none => .error (.storage rootPath Obstacle.missing.text)
    | some (.file _) => .error (.storage rootPath Obstacle.notDirectory.text)
    | some (.directory entries) => .ok ((entryPaths "" entries).mergeSort (· ≤ ·))

/-- The directory at a place of a file system with the usual limits. -/
def toBucket (rootPath : String) (rootSize : Nat) (root : Option FileTree) : Bucket :=
  bucketUnder .usual rootPath rootSize root

end FileTree

end SchemaModules
