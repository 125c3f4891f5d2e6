import SchemaModules.Boundary.Basic
import SchemaModules.Bucket.Basic

/-!
# Workspaces seen through a boundary

The files of a module, out of a workspace, at the places that its boundary gives them. A file
directly in the module's directory that is no schema file is shown under its own name even where no
root takes it in, since the license and the documentation of a module lie there.

The listing leads from files of the workspace to places in the module (`Boundary.place?`), the
lookup leads back (`Boundary.sources`).
-/

namespace SchemaModules

/-- The extension of schema files. -/
def schemaExtension : String := ".proto"

namespace Boundary

/-- Whether a path of the module's directory lies directly in it, is no schema file and is not left
out. -/
def isTopLevelExtra (b : Boundary) (path : String) : Bool :=
  Path.dir path = "." && Path.extension path ≠ schemaExtension && !b.isExcluded path

/-- Where a file of the module's directory is shown, if it is. -/
def show? (b : Boundary) (path : String) : Option String :=
  match b.locate? path with
  | some place => some place
  | none => if b.isTopLevelExtra path then some path else none

/-- A path of the workspace as seen from the module's directory, if it lies there. -/
def fromDirectory? (b : Boundary) (workspacePath : String) :
    Except ModuleError (Option String) :=
  if b.dirPath = "." then .ok (some workspacePath)
  else if Path.contains b.dirPath workspacePath .relative then do
    return some (← (Path.relative b.dirPath workspacePath).mapError .invalidPath)
  else .ok none

/-- Where a file of the workspace is shown in the module, if it is. -/
def place? (b : Boundary) (workspacePath : String) : Except ModuleError (Option String) := do
  return (← b.fromDirectory? workspacePath).bind b.show?

/-- The paths of the workspace at which a file that is shown at a place could lie, in the order in
which they are tried. -/
def sources (b : Boundary) (place : String) : List String :=
  let inRoots := b.roots.filterMap fun root =>
    let path := Path.join [root.path, place]
    if b.locate? path = some place then some (Path.join [b.dirPath, path]) else none
  inRoots ++ if b.isTopLevelExtra place then [Path.join [b.dirPath, place]] else []

/-- The path of the workspace at which the file that is shown at a place lies. -/
def source? (b : Boundary) (workspace : Bucket) (place : String) : Option String := do
  let place ← (Path.validate place).toOption
  (b.sources place).find? workspace.contains

/-- Note where a file of the workspace is shown. No other may be shown there. -/
def note (b : Boundary) (shown : SortedMap String String) (workspacePath : String) :
    Except ModuleError (SortedMap String String) := do
  match ← b.place? workspacePath with
  | none => return shown
  | some place =>
      match shown.find? place with
      | some first => throw (.duplicatePath place first workspacePath)
      | none => return shown.insert place workspacePath

/-- The files of a workspace that belong to a module. -/
def view (b : Boundary) (workspace : Bucket) : Bucket where
  contains place := (b.source? workspace place).isSome
  read place :=
    match b.source? workspace place with
    | some path => workspace.read path
    | none => .error (.fileNotFound place)
  paths := do
    let shown ← (← workspace.paths).foldlM b.note SortedMap.empty
    return shown.keys

end Boundary

end SchemaModules
