import SchemaModules.ErrorKind
import SchemaModules.Identifier.Error
import SchemaModules.Path.Error

/-!
# What can be wrong with a module boundary
-/

namespace SchemaModules

/-- The version of the format that a module is declared in. -/
inductive FileVersion where
  /-- Several roots, excludes only. -/
  | v1beta1
  /-- One root at the top, excludes only. -/
  | v1
  /-- One root at the top, includes and excludes, and a directory of the workspace. -/
  | v2
  deriving DecidableEq, Repr

namespace FileVersion

/-- The name of a version. -/
def text : FileVersion → String
  | .v1beta1 => "v1beta1"
  | .v1 => "v1"
  | .v2 => "v2"

/-- The version of a name. -/
def ofText? (s : String) : Option FileVersion :=
  if s = "v1beta1" then some .v1beta1
  else if s = "v1" then some .v1
  else if s = "v2" then some .v2
  else none

/-- Whether a module of this version has exactly one root. -/
def singleRoot : FileVersion → Bool
  | .v1beta1 => false
  | .v1 | .v2 => true

/-- Whether a module of this version can lie in a directory of its workspace. -/
def allowsDirPath : FileVersion → Bool
  | .v1beta1 | .v1 => false
  | .v2 => true

end FileVersion

/-- How paths of one list, or paths and a root, can lie wrongly to each other. -/
inductive PlacementError where
  | overlap (name inner outer : String)
  | outsideRoot (name path root : String)
  deriving DecidableEq, Repr

/-- The message of a placement error. -/
def PlacementError.message : PlacementError → String
  | .overlap name inner outer =>
      s!"{name} {Text.quote inner} is within {name} {Text.quote outer} which is not allowed"
  | .outsideRoot name path root =>
      s!"{name} {Text.quote path} is not within root {Text.quote root}"

/-- The fields of a declaration that not every version has. -/
inductive VersionedField where
  | path
  | roots
  | includes
  deriving DecidableEq, Repr

/-- Why a field of a declaration is refused. -/
def VersionedField.refusal (version : FileVersion) : VersionedField → String
  | .path => s!"path is not supported with version {version.text}"
  | .roots => s!"roots are not supported with version {version.text}"
  | .includes => s!"includes are not supported with version {version.text}"

/-- How the parts of a boundary can contradict each other. -/
inductive ShapeFault where
  | dirPath (dir : String) (version : FileVersion)
  | differentRoots
  | rootCount (count : Nat) (version : FileVersion)
  | missingTopRoot (version : FileVersion)
  | includes
  | duplicateRoots
  | placement (error : PlacementError)
  deriving DecidableEq, Repr

/-- What a contradiction within a boundary is, in words. -/
def ShapeFault.text : ShapeFault → String
  | .dirPath dir version =>
      s!"had dir_path {Text.quote dir} with file version {version.text}"
  | .differentRoots => "root_to_includes and root_to_excludes have different roots"
  | .rootCount count version => s!"had {count} roots with file version {version.text}"
  | .missingTopRoot version => s!"had roots without \".\" with file version {version.text}"
  | .includes => "includes are not supported with file version v1beta1"
  | .duplicateRoots => "duplicate roots after normalization"
  | .placement error => error.message

/-- What can be wrong with a boundary or its declaration. -/
inductive BoundaryError where
  | path (error : PathError)
  | identifier (error : IdentifierError)
  | emptyPath (name : String)
  | duplicate (name repeated : String)
  | placement (error : PlacementError)
  /-- The text is no declaration. -/
  | unreadable
  | unsupported (field : VersionedField) (version : FileVersion)
  /-- The parts of a boundary that was built directly contradict each other. -/
  | contradiction (fault : ShapeFault)
  deriving DecidableEq, Repr

namespace BoundaryError

/-- The message of a boundary error. -/
def message : BoundaryError → String
  | .path error => error.message
  | .identifier error => error.message
  | .emptyPath name => s!"{name} contained an empty path"
  | .duplicate name repeated => s!"duplicate {name} {Text.quote repeated}"
  | .placement error => error.message
  | .unreadable => "failed to parse module config"
  | .unsupported field version => s!"invalid config value: {field.refusal version}"
  | .contradiction fault => s!"internal module config error: {fault.text}"

/-- The kind of a boundary error: contradictions are not a user's doing. -/
def kind : BoundaryError → ErrorKind
  | .contradiction _ => .system
  | _ => .user

end BoundaryError

end SchemaModules
