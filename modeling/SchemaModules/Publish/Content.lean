import SchemaModules.Module.Set
import SchemaModules.Publish.Error

/-!
# What is published

The local targets of a set and the local modules they depend on are published together, to one
registry. The modules they depend on besides are named in the request.
-/

namespace SchemaModules

/-- A module to be published, under its name. -/
structure Content where
  module : Module
  fullName : FullName

namespace Content

/-- The modules of a list under their names. One without a name is left out or refused. -/
def ofModules (excludeUnnamed : Bool) : List Module → Except PublishError (List Content)
  | [] => .ok []
  | m :: rest =>
      match m.fullName with
      | some name => do return ⟨m, name⟩ :: (← ofModules excludeUnnamed rest)
      | none =>
          if excludeUnnamed then ofModules excludeUnnamed rest
          else .error (.unnamedModule m.description)

/-- What the unnamed modules that contents depend on are called, in ascending order. -/
def unnamedDependencies (s : ModuleSet) (contents : List Content) :
    Except ModuleError (List String) := do
  let deps := (← contents.mapM fun content => s.deps content.module).flatten
  let unnamed := deps.filter fun dep => dep.module.fullName.isNone
  return SortedMap.sortedSet (unnamed.map (·.module.description))

/-- The modules of a set to be published. All that they depend on must be named. -/
def select (s : ModuleSet) (options : PublishOptions) : Except PublishError (List Content) := do
  let contents ← ofModules options.excludeUnnamed s.localContent
  let unnamed ← (unnamedDependencies s contents).mapError .module
  if unnamed ≠ [] then throw (.unnamedDependencies unnamed)
  return contents

/-- The one registry that all contents are published to. -/
def primaryRegistry (contents : List Content) : Except PublishError String :=
  match SortedMap.sortedSet (contents.map (·.fullName.registry)) with
  | [registry] => .ok registry
  | registries => .error (.multipleRegistries registries)

/-- A dependency as it is named in a request, by its commit and its registry. -/
def dependencyRef (dep : Dependency) : Except PublishError DependencyRef :=
  match dep.module.fullName, dep.module.commitId with
  | none, _ => .error (.impossible (.unnamedDependency dep.module.description))
  | some name, none => .error (.impossible (.uncommittedDependency name))
  | some name, some id =>
      if id = CommitId.nil then .error (.impossible (.uncommittedDependency name))
      else .ok ⟨id.text, name.registry⟩

/-- The dependencies of contents outside of them, in ascending order, each once. -/
def dependencyRefs (s : ModuleSet) (contents : List Content) :
    Except PublishError (List DependencyRef) := do
  let deps ← (s.remoteDeps (contents.map (·.module))).mapError .module
  return SortedMap.sortedSet (← deps.mapM dependencyRef)

/-- The labels for all contents: the given ones, or the tags with the default label that the modules
must share. -/
def labels (modules : List RegistryModule) (options : PublishOptions) :
    Except PublishError (List String) :=
  if options.tags = [] then .ok options.labels
  else
    match SortedMap.sortedSet (modules.map (·.defaultLabel)) with
    | [] => .ok options.tags
    | [default] =>
        .ok (if default ∈ options.tags then options.tags else options.tags ++ [default])
    | defaults => .error (.divergentDefaultLabels defaults)

/-- Check that modules on the primary registry do not depend on modules of the public one. Those of
the public one may depend on any. -/
def checkFederation (publicRegistry primary : String) (deps : List DependencyRef) :
    Except PublishError Unit :=
  if primary ≠ publicRegistry ∧ deps.any (·.registry = publicRegistry) then
    .error (.federation primary publicRegistry)
  else .ok ()

/-- Whether some dependency is on another registry than the primary one. -/
def isFederated (primary : String) (deps : List DependencyRef) : Bool :=
  deps.any (·.registry ≠ primary)

/-- The files of a content with the labels for it, as they are uploaded. -/
def toUpload (labels : List String) (options : PublishOptions) (content : Content) :
    Except PublishError UploadContent := do
  let files ← content.module.files.mapError .module
  return ⟨content.fullName.ref, files, labels, options.sourceUrl⟩

end Content

end SchemaModules
