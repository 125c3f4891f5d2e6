import SchemaModules.ErrorKind
import SchemaModules.Identifier.LabelName
import SchemaModules.Identifier.Visibility

/-!
# Options of publishing
-/

namespace SchemaModules

/-- What can be wrong with the options of publishing. -/
inductive OptionsError where
  | labelsAndTags
  | labelName (error : IdentifierError)
  deriving DecidableEq, Repr

namespace OptionsError

/-- The message of an options error. -/
def message : OptionsError → String
  | .labelsAndTags => "labels and tags cannot both be set"
  | .labelName error => error.message

/-- The kind of an options error. -/
def kind : OptionsError → ErrorKind
  | .labelsAndTags | .labelName _ => .user

end OptionsError

/-- How to publish. Modules that do not exist may be created, with the given visibility and default
label. Commits are placed on the labels, or on the tags together with the default label of their
modules. Modules without a name may be left out. -/
structure PublishOptions where
  createMissing : Bool := false
  visibility : Visibility := .isPrivate
  defaultLabel : String := "main"
  labels : List String := []
  tags : List String := []
  excludeUnnamed : Bool := false
  sourceUrl : Option String := none
  deriving DecidableEq, Repr

namespace PublishOptions

/-- Check that not both labels and tags are given and that all label names are valid. -/
def check (o : PublishOptions) : Except OptionsError Unit := do
  if o.labels ≠ [] ∧ o.tags ≠ [] then throw .labelsAndTags
  (checkLabelName o.defaultLabel).mapError .labelName
  ((o.labels ++ o.tags).forM checkLabelName).mapError .labelName

end PublishOptions

/-- The registry on which no other one's modules may depend across registries. -/
def defaultPublicRegistry : String := "buf.build"

end SchemaModules
