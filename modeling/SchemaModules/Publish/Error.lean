import SchemaModules.Module.Error
import SchemaModules.Publish.Options
import SchemaModules.Registry.Basic

/-!
# What can go wrong with publishing
-/

namespace SchemaModules

/-- What can be wrong with the answer of a registry. -/
inductive ResponseFault where
  | moduleCount (requested returned : Nat)
  | otherModule (requested : FullName) (returned : ModuleRef)
  | commitId (error : IdentifierError)
  | nilCommitId (name : FullName)
  deriving DecidableEq

/-- What a fault of an answer is, in words. -/
def ResponseFault.text : ResponseFault → String
  | .moduleCount requested returned =>
      s!"requested {requested} modules, registry returned {returned}"
  | .otherModule requested returned =>
      s!"requested module {requested.text}, registry returned {returned.text}"
  | .commitId error => error.message
  | .nilCommitId name => s!"nil commit id for {name.text}"

/-- What should not be possible while publishing. -/
inductive PublishFault where
  | moduleCountOf (name : FullName)
  | unnamedDependency (description : String)
  | uncommittedDependency (name : FullName)
  deriving DecidableEq

/-- What a fault of publishing is, in words. -/
def PublishFault.text : PublishFault → String
  | .moduleCountOf name => s!"expected exactly one module for {name.text}"
  | .unnamedDependency description => s!"remote dependency {description} has no name"
  | .uncommittedDependency name => s!"remote dependency {name.text} has no commit id"

/-- What can go wrong with publishing. -/
inductive PublishError where
  | options (error : OptionsError)
  | unnamedModule (description : String)
  | unnamedDependencies (descriptions : List String)
  | divergentDefaultLabels (labels : List String)
  | multipleRegistries (registries : List String)
  /-- Modules of one registry depend on modules of another on which they may not. -/
  | federation (primary dependency : String)
  | commitCount (expected actual : Nat)
  | invalidResponse (fault : ResponseFault)
  | impossible (fault : PublishFault)
  | module (error : ModuleError)
  | registry (error : RegistryError)
  deriving DecidableEq

namespace PublishError

/-- Texts in a row. -/
def row (texts : List String) : String := ", ".intercalate texts

/-- The message of a publishing error. -/
def message : PublishError → String
  | .options error => error.message
  | .unnamedModule description =>
      s!"{description} has no name; name the module or exclude unnamed modules"
  | .unnamedDependencies descriptions =>
      s!"dependencies must be named to upload: {row descriptions}"
  | .divergentDefaultLabels labels =>
      s!"tags require every module to share one default label, found: {row labels}"
  | .multipleRegistries registries =>
      s!"modules to upload span multiple registries: {row registries}"
  | .federation primary dependency =>
      s!"modules on {primary} cannot depend on modules on {dependency}"
  | .commitCount expected actual =>
      s!"registry returned {actual} commits for {expected} uploaded modules"
  | .invalidResponse fault => s!"invalid registry response: {fault.text}"
  | .impossible fault => s!"internal error: {fault.text}"
  | .module error => error.message
  | .registry error => error.message

/-- The kind of a publishing error. -/
def kind : PublishError → ErrorKind
  | .options error => error.kind
  | .unnamedModule _ | .unnamedDependencies _ | .divergentDefaultLabels _ | .federation .. => .user
  | .commitCount .. | .invalidResponse _ => .consistency
  | .multipleRegistries _ | .impossible _ => .system
  | .module error => error.kind
  | .registry error => error.kind

end PublishError

end SchemaModules
