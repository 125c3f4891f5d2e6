import SchemaModules.Graph
import SchemaModules.Module.Resolver

/-!
# Sets of modules

A set of modules with their dependencies on each other, which have no cycle. `ModuleSet.build`
checks that; everything else is asked of a set that was built.
-/

namespace SchemaModules

/-- Modules in the order they were given, and the graph of their dependencies. -/
structure ModuleSet where
  modules : List Module
  graph : Graph

/-- A module that others depend on, and whether one of them does so directly. -/
structure Dependency where
  module : Module
  isDirect : Bool

namespace ModuleSet

/-- The graph of the ids of modules, which must be distinct. -/
def addNodes (modules : List Module) : Except ModuleError Graph :=
  modules.foldlM (fun g m =>
    if g.contains m.opaqueId then .error (.duplicateModule m.description)
    else .ok (g.addNode m.opaqueId)) Graph.empty

/-- Add a dependency of a module to a graph, in which it must be a node. -/
def addDependency (m : Module) (g : Graph) (dep : String) : Except ModuleError Graph :=
  if g.contains dep then .ok (g.addEdge m.opaqueId dep)
  else .error (.unknownDependency m.description dep)

/-- Add the dependencies that a resolver gives to a graph of modules. -/
def addDependencies (resolver : Resolver) (modules : List Module) (g : Graph) :
    Except ModuleError Graph :=
  modules.foldlM (fun g m => do
    (← resolver m modules).foldlM (addDependency m) g) g

/-- The set of modules with the dependencies that a resolver gives. -/
def build (modules : List Module) (resolver : Resolver) : Except ModuleError ModuleSet := do
  let g ← addDependencies resolver modules (← addNodes modules)
  match g.findCycle with
  | some id => throw (.cycle id)
  | none => return ⟨modules, g⟩

/-- The module of an id. -/
def findById? (s : ModuleSet) (id : String) : Option Module :=
  s.modules.find? fun m => m.opaqueId = id

/-- The module of a full name. -/
def findByName? (s : ModuleSet) (name : FullName) : Option Module :=
  s.modules.find? fun m => m.fullName = some name

/-- The module of an id that must be in the set. -/
def member (s : ModuleSet) (id : String) : Except ModuleError Module :=
  match s.findById? id with
  | some m => .ok m
  | none => .error (.fault ("module " ++ id ++ " missing from set"))

/-- All modules that a module depends on, the direct ones first. -/
def deps (s : ModuleSet) (m : Module) : Except ModuleError (List Dependency) :=
  (s.graph.transitiveDeps m.opaqueId).mapM fun id => do
    return ⟨← s.member id, id ∈ s.graph.directDeps m.opaqueId⟩

/-- The ids of the local modules that a local target depends on, and its own. -/
def localIds (s : ModuleSet) (target : Module) : List String :=
  target.opaqueId :: (s.graph.transitiveDeps target.opaqueId).filter fun id =>
    (s.findById? id).any (·.isLocal)

/-- The local targets and the local modules that they depend on, in the order of the set. -/
def localContent (s : ModuleSet) : List Module :=
  let targets := s.modules.filter fun m => m.isLocal && m.isTarget
  let selected := targets.flatMap s.localIds
  s.modules.filter fun m => m.opaqueId ∈ selected

/-- Note a dependency of a group of modules, which is direct if it is so for one of them. -/
def noteDependency (noted : SortedMap String Dependency) (dep : Dependency) :
    SortedMap String Dependency :=
  let known := match noted.find? dep.module.opaqueId with
    | some known => { known with isDirect := known.isDirect || dep.isDirect }
    | none => dep
  noted.insert dep.module.opaqueId known

/-- The modules outside a group that modules of the group depend on, in ascending order of ids. -/
def remoteDeps (s : ModuleSet) (group : List Module) : Except ModuleError (List Dependency) := do
  let members := group.map (·.opaqueId)
  let deps := (← group.mapM s.deps).flatten
  let outside := deps.filter fun dep => dep.module.opaqueId ∉ members
  return (outside.foldl noteDependency SortedMap.empty).entries.map Prod.snd

/-- The registries of the named modules, in ascending order. -/
def registries (s : ModuleSet) : List String :=
  SortedMap.sortedSet ((s.modules.filterMap (·.fullName)).map (·.registry))

end ModuleSet

end SchemaModules
