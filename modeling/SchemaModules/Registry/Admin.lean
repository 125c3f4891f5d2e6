import SchemaModules.Identifier.CommitId
import SchemaModules.Identifier.LabelName
import SchemaModules.Registry.Client

/-!
# Administration of registries

Operations on labels, modules and organizations that a user refers to by text. What a registry does
not find is reported with the reference as the user wrote it.
-/

namespace SchemaModules

/-- Why a text refers to nothing. -/
inductive ReferenceFault where
  | moduleName (error : IdentifierError)
  | notLabel
  | labelModule
  | labelName (error : IdentifierError)
  | notOrganization
  deriving DecidableEq, Repr

/-- What a fault of a reference is, in words. -/
def ReferenceFault.text : ReferenceFault → String
  | .moduleName error => error.message
  | .notLabel => "expected registry/owner/name:label"
  | .labelModule => "invalid module"
  | .labelName error => error.message
  | .notOrganization => "expected registry/organization"

/-- What can go wrong with administration. -/
inductive AdminError where
  | moduleNotFound (reference : String)
  | labelNotFound (reference : String)
  | organizationNotFound (reference : String)
  | alreadyExists (reference : String)
  | invalidReference (reference : String) (fault : ReferenceFault)
  | registry (error : RegistryError)
  deriving DecidableEq, Repr

namespace AdminError

/-- The message of an administration error. -/
def message : AdminError → String
  | .moduleNotFound reference => s!"a module named {Text.quote reference} does not exist"
  | .labelNotFound reference => s!"a label named {Text.quote reference} does not exist"
  | .organizationNotFound reference =>
      s!"an organization named {Text.quote reference} does not exist"
  | .alreadyExists reference => s!"{Text.quote reference} already exists"
  | .invalidReference reference fault =>
      s!"invalid reference {Text.quote reference}: {fault.text}"
  | .registry error => error.message

/-- The kind of an administration error. -/
def kind : AdminError → ErrorKind
  | .moduleNotFound _ | .labelNotFound _ | .organizationNotFound _ => .notFound
  | .alreadyExists _ | .invalidReference .. => .user
  | .registry error => error.kind

/-- A registry error for a user, where what was not found is reported in the user's words. -/
def ofNotFound (domain : AdminError) : RegistryError → AdminError
  | .notFound _ => domain
  | error => .registry error

/-- A registry error for a user, where what exists is reported in the user's words. -/
def ofAlreadyExists (domain : AdminError) : RegistryError → AdminError
  | .alreadyExists _ => domain
  | error => .registry error

end AdminError

namespace Admin

/-- The module that a text refers to. -/
def parseModule (reference : String) : Except AdminError FullName :=
  (FullName.parse reference).mapError fun error => .invalidReference reference (.moduleName error)

/-- The text before and after the last colon, if there is one. -/
def splitLastColon? (s : List Char) : Option (List Char × List Char) :=
  if ':' ∈ s then
    let label := (s.reverse.takeWhile (· ≠ ':')).reverse
    some (s.take (s.length - label.length - 1), label)
  else none

/-- The label that a text refers to, with the full name of its module. -/
def parseLabel (reference : String) : Except AdminError (FullName × LabelRef) :=
  match splitLastColon? reference.toList with
  | none => .error (.invalidReference reference .notLabel)
  | some (module, label) => do
      let label := String.ofList label
      let name ← (FullName.parse (String.ofList module)).mapError fun _ =>
        .invalidReference reference .labelModule
      (checkLabelName label).mapError fun error => .invalidReference reference (.labelName error)
      return (name, ⟨name.ref, label⟩)

/-- The registry and the organization that a text refers to. -/
def parseOrganization (reference : String) : Except AdminError (String × String) :=
  match (Text.split '/' reference.toList).map String.ofList with
  | [registry, name] =>
      if registry ≠ "" ∧ name ≠ "" then .ok (registry, name)
      else .error (.invalidReference reference .notOrganization)
  | _ => .error (.invalidReference reference .notOrganization)

variable {σ : Type}

/-- Look up the label that a text refers to. -/
def getLabel (client : AdminClient σ) (reference : String) (state : σ) :
    Except AdminError Label × σ :=
  match parseLabel reference with
  | .error error => (.error error, state)
  | .ok (name, ref) =>
      match client.getLabels name.registry [ref] state with
      | (.error error, state) => (.error (.ofNotFound (.labelNotFound reference) error), state)
      | (.ok labels, state) =>
          match labels.getLast? with
          | some label => (.ok label, state)
          | none => (.error (.labelNotFound reference), state)

/-- Create the label that a text refers to, or move it to a commit. -/
def updateLabel (client : AdminClient σ) (reference : String) (commitId : CommitId) (state : σ) :
    Except AdminError Label × σ :=
  match parseLabel reference with
  | .error error => (.error error, state)
  | .ok (name, ref) =>
      match client.updateLabels name.registry [⟨ref, commitId.text⟩] state with
      | (.error error, state) => (.error (.ofNotFound (.moduleNotFound reference) error), state)
      | (.ok labels, state) =>
          match labels.getLast? with
          | some label => (.ok label, state)
          | none =>
              let missing := "no label returned for " ++ reference
              (.error (.registry (.api "internal" missing)), state)

/-- Deprecate the module that a text refers to, or take that back. -/
def setDeprecated (client : AdminClient σ) (reference : String) (deprecated : Bool) (state : σ) :
    Except AdminError RegistryModule × σ :=
  match parseModule reference with
  | .error error => (.error error, state)
  | .ok name =>
      let wanted := if deprecated then .deprecated else .active
      let (answer, state) := client.updateModuleState name.registry name.ref wanted state
      (answer.mapError (.ofNotFound (.moduleNotFound reference)), state)

/-- Create the organization that a text refers to. -/
def createOrganization (client : AdminClient σ) (reference : String) (state : σ) :
    Except AdminError Organization × σ :=
  match parseOrganization reference with
  | .error error => (.error error, state)
  | .ok (registry, name) =>
      let (answer, state) := client.createOrganization registry name state
      (answer.mapError (.ofAlreadyExists (.alreadyExists reference)), state)

/-- Delete the organization that a text refers to. -/
def deleteOrganization (client : AdminClient σ) (reference : String) (state : σ) :
    Except AdminError Unit × σ :=
  match parseOrganization reference with
  | .error error => (.error error, state)
  | .ok (registry, name) =>
      let (answer, state) := client.deleteOrganization registry name state
      (answer.mapError (.ofNotFound (.organizationNotFound reference)), state)

end Admin

end SchemaModules
