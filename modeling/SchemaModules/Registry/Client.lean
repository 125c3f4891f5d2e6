import SchemaModules.Registry.Basic

/-!
# Registry clients

A client says what can be asked of registries, each by its host name. The registries are behind a
state of any type, so that a client can stand for one in memory as well as for one that answers what
it was told to.
-/

namespace SchemaModules

/-- A call to a registry: an answer or an error, and the state after it in either case. -/
abbrev Call (σ α : Type) := σ → Except RegistryError α × σ

/-- What publishing asks of registries. Answers come in the order of the request. -/
structure Client (σ : Type) where
  createModules (registry : String) (requests : List NewModule) : Call σ (List RegistryModule)
  getModules (registry : String) (refs : List ModuleRef) : Call σ (List RegistryModule)
  /-- Upload content all of whose dependencies are on the registry itself. -/
  upload (registry : String) (contents : List UploadContent) (depCommitIds : List String) :
    Call σ (List UploadedCommit)
  /-- Upload content whose dependencies may be on other registries. -/
  uploadFederated (registry : String) (contents : List UploadContent)
    (deps : List DependencyRef) : Call σ (List UploadedCommit)

/-- What administration asks of registries. Answers come in the order of the request. -/
structure AdminClient (σ : Type) where
  getLabels (registry : String) (refs : List LabelRef) : Call σ (List Label)
  updateLabels (registry : String) (moves : List LabelMove) : Call σ (List Label)
  updateModuleState (registry : String) (ref : ModuleRef) (state : ModuleState) :
    Call σ RegistryModule
  createOrganization (registry name : String) : Call σ Organization
  deleteOrganization (registry name : String) : Call σ Unit

end SchemaModules
