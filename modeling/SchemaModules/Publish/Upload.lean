import SchemaModules.Publish.Reconcile
import SchemaModules.Registry.Client

/-!
# Publishing a set of modules

Publishing resolves the modules on the registry, creating them if that is asked for, and uploads all
contents in one request. Everything before the upload can be done again without harm.
-/

namespace SchemaModules

/-- A course of calls to registries that may end in an error. The state is kept in either case. -/
abbrev Publishing (σ α : Type) := ExceptT PublishError (StateM σ) α

namespace Publishing

variable {σ α : Type}

/-- One call. -/
def call (c : Call σ α) : Publishing σ α :=
  ExceptT.mk fun state =>
    let (answer, state) := c state
    (answer.mapError .registry, state)

/-- One call, of which the error is looked at. -/
def attempt (c : Call σ α) : Publishing σ (Except RegistryError α) :=
  ExceptT.mk fun state =>
    let (answer, state) := c state
    (.ok answer, state)

/-- A result that needs no call. -/
def given (result : Except PublishError α) : Publishing σ α :=
  ExceptT.mk (pure result)

/-- Create the module of a name, or get it if it exists already. -/
def createOrGet (client : Client σ) (registry : String) (options : PublishOptions)
    (name : FullName) : Publishing σ RegistryModule := do
  let new : NewModule := ⟨name.ref, options.visibility, options.defaultLabel⟩
  let modules ← match ← attempt (client.createModules registry [new]) with
    | .ok created => pure created
    | .error (.alreadyExists _) => call (client.getModules registry [name.ref])
    | .error error => throw (.registry error)
  match modules with
  | [module] => return module
  | _ => throw (.impossible (.moduleCountOf name))

/-- Get the modules of contents, which must be as many. -/
def getAll (client : Client σ) (registry : String) (contents : List Content) :
    Publishing σ (List RegistryModule) := do
  let modules ← call (client.getModules registry (contents.map (·.fullName.ref)))
  if modules.length ≠ contents.length then
    throw (.invalidResponse (.moduleCount contents.length modules.length))
  return modules

/-- Check that a registry returned the module of a content. -/
def checkSame (pair : Content × RegistryModule) : Except PublishError Unit :=
  let returned : ModuleRef := ⟨pair.2.owner, pair.2.name⟩
  if returned = pair.1.fullName.ref then .ok ()
  else .error (.invalidResponse (.otherModule pair.1.fullName returned))

/-- The modules of contents on their registry, in the order of the contents. -/
def resolve (client : Client σ) (registry : String) (contents : List Content)
    (options : PublishOptions) : Publishing σ (List RegistryModule) := do
  let modules ←
    if options.createMissing then
      contents.mapM fun content => createOrGet client registry options content.fullName
    else getAll client registry contents
  given ((contents.zip modules).forM checkSame)
  return modules

/-- Upload contents, with bare commit ids if all dependencies are on the registry itself. -/
def send (client : Client σ) (registry : String) (uploads : List UploadContent)
    (deps : List DependencyRef) : Publishing σ (List UploadedCommit) :=
  if Content.isFederated registry deps then call (client.uploadFederated registry uploads deps)
  else call (client.upload registry uploads (deps.map (·.commitId)))

/-- Publish contents, of which there are some. -/
def uploadContents (client : Client σ) (publicRegistry : String) (s : ModuleSet)
    (options : PublishOptions) (contents : List Content) : Publishing σ (List Commit) := do
  let primary ← given (Content.primaryRegistry contents)
  let modules ← resolve client primary contents options
  let labels ← given (Content.labels modules options)
  let deps ← given (Content.dependencyRefs s contents)
  given (Content.checkFederation publicRegistry primary deps)
  let uploads ← given (contents.mapM (Content.toUpload labels options))
  let returned ← send client primary uploads deps
  given (Content.reconcile contents returned)

end Publishing

/-- Publish the local targets of a set and the local modules they depend on. There is one commit for
each, in the order of the set. -/
def ModuleSet.upload {σ : Type} (s : ModuleSet) (client : Client σ) (publicRegistry : String)
    (options : PublishOptions) : Publishing σ (List Commit) := do
  Publishing.given (options.check.mapError .options)
  let contents ← Publishing.given (Content.select s options)
  if contents.isEmpty then return []
  else Publishing.uploadContents client publicRegistry s options contents

end SchemaModules
