import SchemaModules.Text.Quoted

/-!
# What can be wrong with a path
-/

namespace SchemaModules

/-- Why a path does not name a place inside its context directory. -/
inductive PathFault where
  /-- The path starts at the root. -/
  | notRelative
  /-- The path leads out of its context directory. -/
  | contextJump
  deriving DecidableEq, Repr

/-- What a fault of a path is, in words. -/
def PathFault.text : PathFault → String
  | .notRelative => "expected to be relative"
  | .contextJump => "is outside the context directory"

/-- Why a text cannot be a single path component. -/
inductive ComponentFault where
  | empty
  | slash
  | parent
  | escaped
  deriving DecidableEq, Repr

/-- What a fault of a path component is, in words. -/
def ComponentFault.text : ComponentFault → String
  | .empty => "path component must not be empty"
  | .slash => "path component must not contain \"/\""
  | .parent => "path component must not contain \"..\""
  | .escaped => "path component must match its URL escaped version"

/-- What can be wrong with a path or with a list of paths. -/
inductive PathError where
  | invalid (path : String) (fault : PathFault)
  | invalidComponent (component : String) (fault : ComponentFault)
  | empty
  | notNormalized (path normalized : String)
  | duplicate (path : String)
  | notRelatable (base target : String)
  deriving DecidableEq, Repr

/-- The message of a path error. -/
def PathError.message : PathError → String
  | .invalid path fault => s!"{path}: {fault.text}"
  | .invalidComponent component fault =>
      s!"invalid path component {Text.quote component}: {fault.text}"
  | .empty => "path is empty"
  | .notNormalized path normalized => s!"path {path} was not normalized to {normalized}"
  | .duplicate path => s!"duplicate path: {path}"
  | .notRelatable base target => s!"cannot make {target} relative to {base}"

/-- What can be wrong with a path that is to be brought into the form in which paths are compared. -/
inductive AnchorError where
  | refused (error : PathError)
  /-- The path is relative, and the system does not give the working directory. -/
  | noWorkingDirectory (path reason : String)
  deriving DecidableEq, Repr

/-- The message of an error of a path that is to be compared. -/
def AnchorError.message : AnchorError → String
  | .refused error => error.message
  | .noWorkingDirectory path reason => s!"cannot resolve absolute path for {path}: {reason}"

end SchemaModules
