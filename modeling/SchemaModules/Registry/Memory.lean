import SchemaModules.Registry.Store

/-!
# Registries in memory

A store behind a client that notes every call. It can be told to fail one kind of call, and to leave
things out of its answers to uploads, as a faulty registry might.
-/

namespace SchemaModules

/-- The kinds of calls. -/
inductive Method where
  | createModules
  | getModules
  | upload
  | uploadFederated
  | getLabels
  | updateLabels
  | updateModuleState
  | createOrganization
  | deleteOrganization
  deriving DecidableEq, Repr

namespace Method

/-- All kinds of calls. -/
def all : List Method :=
  [.createModules, .getModules, .upload, .uploadFederated, .getLabels, .updateLabels,
    .updateModuleState, .createOrganization, .deleteOrganization]

/-- The name of a kind of call. -/
def text : Method → String
  | .createModules => "create_modules"
  | .getModules => "get_modules"
  | .upload => "upload"
  | .uploadFederated => "upload_federated"
  | .getLabels => "get_labels"
  | .updateLabels => "update_labels"
  | .updateModuleState => "update_module_state"
  | .createOrganization => "create_organization"
  | .deleteOrganization => "delete_organization"

/-- The kind of call of a name. -/
def ofText? (s : String) : Option Method := all.find? fun m => m.text = s

/-- Every kind of call is found by its name. -/
theorem ofText?_text (m : Method) : ofText? m.text = some m := by
  cases m <;> decide

end Method

/-- What an answer to an upload can lack. -/
inductive Omission where
  | lastCommit
  | digests
  | createTimes
  deriving DecidableEq, Repr

/-- A call as it is noted. Uploads are noted with the labels of each content. -/
inductive Operation where
  | createModules (registry : String) (modules : List ModuleRef)
  | getModules (registry : String) (modules : List ModuleRef)
  | upload (registry : String) (modules : List ModuleRef) (labels : List (List String))
      (depCommitIds : List String)
  | uploadFederated (registry : String) (modules : List ModuleRef) (labels : List (List String))
      (deps : List DependencyRef)
  | getLabels (registry : String) (labels : List LabelRef)
  | updateLabels (registry : String) (labels : List LabelRef)
  | updateModuleState (registry : String) (module : ModuleRef) (state : ModuleState)
  | createOrganization (registry name : String)
  | deleteOrganization (registry name : String)
  deriving DecidableEq, Repr

namespace Operation

/-- The kind of a call. -/
def method : Operation → Method
  | .createModules .. => .createModules
  | .getModules .. => .getModules
  | .upload .. => .upload
  | .uploadFederated .. => .uploadFederated
  | .getLabels .. => .getLabels
  | .updateLabels .. => .updateLabels
  | .updateModuleState .. => .updateModuleState
  | .createOrganization .. => .createOrganization
  | .deleteOrganization .. => .deleteOrganization

/-- The registry that a call is made to. -/
def registry : Operation → String
  | .createModules registry _ | .getModules registry _ | .upload registry .. => registry
  | .uploadFederated registry .. | .getLabels registry _ | .updateLabels registry _ => registry
  | .updateModuleState registry .. | .createOrganization registry _ => registry
  | .deleteOrganization registry _ => registry

/-- Whether a call uploads content. -/
def isUpload : Operation → Bool
  | .upload .. | .uploadFederated .. => true
  | _ => false

end Operation

/-- What an upload answers where something is left out. -/
def Omission.apply (commits : List UploadedCommit) : Omission → List UploadedCommit
  | .lastCommit => commits.dropLast
  | .digests => commits.map fun commit => { commit with digest := none }
  | .createTimes => commits.map fun commit => { commit with createTime := none }

/-- Registries in memory: what they keep, which kind of call fails and how, what they leave out, and
the calls that were made, oldest first. -/
structure MemoryRegistry where
  store : Store
  failure : Option (Method × RegistryError)
  omissions : List Omission
  operations : List Operation

namespace MemoryRegistry

/-- Registries that keep nothing yet and do not fail. -/
def empty : MemoryRegistry := ⟨Store.empty, none, [], []⟩

/-- The error that a kind of call fails with, if it is to fail. -/
def failureOf? (r : MemoryRegistry) (method : Method) : Option RegistryError :=
  match r.failure with
  | some (failing, error) => if failing = method then some error else none
  | none => none

/-- Note a call, and unless it is to fail, carry it out on the store. -/
def perform {α : Type} (operation : Operation) (run : Call Store α) : Call MemoryRegistry α :=
  fun r =>
    let noted := { r with operations := r.operations ++ [operation] }
    match r.failureOf? operation.method with
    | some error => (.error error, noted)
    | none =>
        let (answer, store) := run r.store
        (answer, { noted with store := store })

/-- A call that only looks at the store. -/
def reading {α : Type} (look : Store → Except RegistryError α) : Call Store α :=
  fun s => (look s, s)

/-- A call that changes the store only if it succeeds. -/
def changing {α : Type} (change : Store → Except RegistryError (α × Store)) : Call Store α :=
  fun s =>
    match change s with
    | .ok (answer, s) => (.ok answer, s)
    | .error error => (.error error, s)

/-- Upload contents, with an answer from which things may be left out. -/
def uploading (operation : Operation) (contents : List UploadContent) :
    Call MemoryRegistry (List UploadedCommit) := fun r =>
  let (answer, after) :=
    perform operation (changing (Store.upload operation.registry contents)) r
  (answer.map fun commits => r.omissions.foldl Omission.apply commits, after)

/-- The client that publishing uses on registries in memory. -/
def client : Client MemoryRegistry where
  createModules registry requests :=
    perform (.createModules registry (requests.map (·.ref)))
      (changing (Store.createModules registry requests))
  getModules registry refs :=
    perform (.getModules registry refs) (reading (Store.getModules registry refs))
  upload registry contents depCommitIds :=
    uploading (.upload registry (contents.map (·.ref)) (contents.map (·.labels)) depCommitIds)
      contents
  uploadFederated registry contents deps :=
    uploading (.uploadFederated registry (contents.map (·.ref)) (contents.map (·.labels)) deps)
      contents

/-- The client that administration uses on registries in memory. -/
def adminClient : AdminClient MemoryRegistry where
  getLabels registry refs :=
    perform (.getLabels registry refs) (reading (Store.getLabels registry refs))
  updateLabels registry moves :=
    perform (.updateLabels registry (moves.map (·.ref))) (Store.moveLabels registry moves)
  updateModuleState registry ref state :=
    perform (.updateModuleState registry ref state)
      (changing (Store.setModuleState registry ref state))
  createOrganization registry name :=
    perform (.createOrganization registry name) (changing (Store.createOrganization registry name))
  deleteOrganization registry name :=
    perform (.deleteOrganization registry name) (changing (Store.deleteOrganization registry name))

/-- Put a module in without a call, and give its id. -/
def seedModule (r : MemoryRegistry) (registry : String) (ref : ModuleRef) (defaultLabel : String) :
    String × MemoryRegistry :=
  let (added, store) := r.store.addModule registry ⟨ref, .isPrivate, defaultLabel⟩
  (added.id, { r with store := store })

/-- Put a commit of an empty module in without a call, and give its id. -/
def seedCommit (r : MemoryRegistry) (registry : String) (ref : ModuleRef) :
    Except RegistryError (String × MemoryRegistry) := do
  let found ← r.store.findModule registry ref
  let (id, store) := r.store.addCommit registry found.id (Digest.ofFiles [])
  return (id, { r with store := store })

/-- Put an organization in without a call. -/
def seedOrganization (r : MemoryRegistry) (registry name : String) : MemoryRegistry :=
  { r with store := (r.store.addOrganization registry name).2 }

end MemoryRegistry

end SchemaModules
