import SchemaModules.Digest
import SchemaModules.ErrorKind
import SchemaModules.Identifier.FullName
import SchemaModules.Identifier.Visibility

/-!
# What is said to and by a registry

The values that go into requests and come back in answers, and the errors a registry gives. All ids
are texts here: a registry may send anything.
-/

namespace SchemaModules

/-- An error that a registry gives. -/
inductive RegistryError where
  | notFound (what : String)
  | alreadyExists (what : String)
  | permissionDenied (reason : String)
  | invalidArgument (reason : String)
  | unavailable (reason : String)
  /-- Any other error, by the registry's own code. -/
  | api (code reason : String)
  deriving DecidableEq, Repr

namespace RegistryError

/-- The message of a registry error. -/
def message : RegistryError → String
  | .notFound what => s!"not found: {what}"
  | .alreadyExists what => s!"already exists: {what}"
  | .permissionDenied reason => s!"permission denied: {reason}"
  | .invalidArgument reason => s!"invalid argument: {reason}"
  | .unavailable reason => s!"registry unavailable: {reason}"
  | .api code reason => s!"registry error: {code} - {reason}"

/-- The kind of a registry error. -/
def kind : RegistryError → ErrorKind
  | .notFound _ => .notFound
  | .alreadyExists _ | .permissionDenied _ | .invalidArgument _ => .user
  | .unavailable _ | .api .. => .transport

end RegistryError

/-- Whether a module on a registry should still be used. -/
inductive ModuleState where
  | active
  | deprecated
  deriving DecidableEq, Repr

/-- The name of a module state. -/
def ModuleState.text : ModuleState → String
  | .active => "active"
  | .deprecated => "deprecated"

/-- A module as a registry keeps it. The default label is the one that new commits are placed on if
no other is given. -/
structure RegistryModule where
  id : String
  owner : String
  name : String
  visibility : Visibility
  defaultLabel : String
  state : ModuleState
  deriving DecidableEq, Repr

/-- A module of a registry by its owner and name. -/
structure ModuleRef where
  owner : String
  name : String
  deriving DecidableEq, Repr

/-- A module reference as text. -/
def ModuleRef.text (r : ModuleRef) : String := r.owner ++ "/" ++ r.name

/-- The reference to a module on its own registry. -/
def FullName.ref (n : FullName) : ModuleRef := ⟨n.owner, n.name⟩

/-- A module to be created. -/
structure NewModule where
  ref : ModuleRef
  visibility : Visibility
  defaultLabel : String
  deriving DecidableEq, Repr

/-- The content of one module to be uploaded, with the labels to place its commit on. -/
structure UploadContent where
  ref : ModuleRef
  files : List (String × Bytes)
  labels : List String
  sourceUrl : Option String
  deriving DecidableEq, Repr

/-- A commit that content depends on, and the registry it is on. -/
structure DependencyRef where
  commitId : String
  registry : String
  deriving DecidableEq, Repr

/-- Dependencies are ordered by commit id, then registry. -/
instance : Key DependencyRef where
  texts d := [d.commitId, d.registry]
  texts_injective a b h := by
    cases a
    cases b
    simpa using h

/-- A commit that an upload made. A registry may leave out its digest and its time, which is in
seconds since the epoch. -/
structure UploadedCommit where
  id : String
  moduleId : String
  digest : Option String
  createTime : Option Int
  deriving DecidableEq, Repr

/-- A label of a module. -/
structure LabelRef where
  module : ModuleRef
  label : String
  deriving DecidableEq, Repr

/-- A label reference as text. -/
def LabelRef.text (r : LabelRef) : String := r.module.text ++ ":" ++ r.label

/-- A label as a registry keeps it. -/
structure Label where
  name : String
  moduleId : String
  commitId : String
  deriving DecidableEq, Repr

/-- A label to be created or moved to a commit. -/
structure LabelMove where
  ref : LabelRef
  commitId : String
  deriving DecidableEq, Repr

/-- An organization on a registry. -/
structure Organization where
  id : String
  name : String
  deriving DecidableEq, Repr

end SchemaModules
