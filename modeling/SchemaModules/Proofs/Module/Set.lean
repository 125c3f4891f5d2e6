import SchemaModules.Module.Set
import SchemaModules.Proofs.Graph
import SchemaModules.Proofs.Outcome

/-! # Sets of modules that were built

A set that was built has a node for each of its modules, and its dependencies lead to modules of the
set (`WellFormed`). So every question about the dependencies of a module has an answer.
-/

namespace SchemaModules.ModuleSet

/-- A set whose graph has its modules for nodes, and edges between them. -/
structure WellFormed (s : ModuleSet) : Prop where
  nodes : ∀ id, id ∈ s.graph.nodes ↔ id ∈ s.modules.map (·.opaqueId)
  closed : s.graph.Closed

/-- A set that was built out of modules. -/
def IsBuilt (s : ModuleSet) : Prop := ∃ modules resolver, build modules resolver = .ok s

/-- A set is built where nodes and edges can be added to a graph in which no cycle is found. -/
theorem build_eq_ok_iff {modules : List Module} {resolver : Resolver} {s : ModuleSet} :
    build modules resolver = .ok s ↔ ∃ start, addNodes modules = .ok start ∧
      addDependencies resolver modules start = .ok s.graph ∧ s.graph.findCycle = none ∧
      s.modules = modules := by
  unfold build
  rw [Outcome.bind_eq_ok_iff]
  refine exists_congr fun start => and_congr_right fun _ => ?_
  rw [Outcome.bind_eq_ok_iff]
  constructor
  · rintro ⟨g, edgesAdded, checked⟩
    cases cycle : g.findCycle with
    | some id => simp [cycle] at checked
    | none =>
        simp only [cycle] at checked
        obtain rfl := Outcome.pure_eq_ok_iff.mp checked
        exact ⟨edgesAdded, cycle, rfl⟩
  · rintro ⟨edgesAdded, acyclic, rfl⟩
    refine ⟨s.graph, edgesAdded, ?_⟩
    rw [acyclic]
    rfl

/-- Nodes are added for modules as long as their ids are new. -/
theorem adjacency_of_addNodes {modules : List Module} {g : Graph}
    (added : addNodes modules = .ok g) : (modules.map (·.opaqueId)).Nodup ∧
      g.adjacency = modules.map fun m => (m.opaqueId, []) := by
  refine Outcome.foldlM_carries (fun done g => (done.map (·.opaqueId)).Nodup ∧
    g.adjacency = done.map fun m => (m.opaqueId, [])) ?_ ⟨.nil, rfl⟩ added
  intro done m rest _ before after ⟨distinct, adjacency⟩ step
  have nodes : before.nodes = done.map (·.opaqueId) := by simp [Graph.nodes, adjacency]
  by_cases known : before.contains m.opaqueId = true
  · simp [known] at step
  · rw [if_neg known] at step
    obtain rfl := Except.ok.inj step
    refine ⟨?_, ?_⟩
    · rw [Graph.contains_iff, nodes] at known
      rw [List.map_append, List.nodup_append]
      refine ⟨distinct, List.pairwise_singleton _ _, ?_⟩
      intro id member other same
      rw [List.mem_singleton.mp same]
      exact ne_of_mem_of_not_mem member known
    · rw [Graph.addNode, if_neg known, adjacency, List.map_append]
      rfl

theorem nodes_of_addNodes {modules : List Module} {g : Graph} (added : addNodes modules = .ok g) :
    (∀ id, id ∈ g.nodes ↔ id ∈ modules.map (·.opaqueId)) ∧ g.Closed := by
  obtain ⟨-, adjacency⟩ := adjacency_of_addNodes added
  refine ⟨fun id => by simp [Graph.nodes, adjacency], ?_⟩
  intro node member
  rw [adjacency] at member
  obtain ⟨m, -, rfl⟩ := List.mem_map.mp member
  exact fun dep none => absurd none List.not_mem_nil

/-- Adding a dependency of a node keeps the nodes, and the graph closed. -/
theorem keeps_of_addDependency {m : Module} {g h : Graph} {dep : String} (closed : g.Closed)
    (node : g.contains m.opaqueId = true) (added : addDependency m g dep = .ok h) :
    h.Closed ∧ h.nodes = g.nodes := by
  unfold addDependency at added
  by_cases known : g.contains dep = true
  · rw [if_pos known] at added
    obtain rfl := Except.ok.inj added
    exact closed.addEdge node known
  · simp [known] at added

theorem keeps_of_addDependencies {resolver : Resolver} {modules : List Module} {g h : Graph}
    (closed : g.Closed) (nodes : ∀ m ∈ modules, g.contains m.opaqueId = true)
    (added : addDependencies resolver modules g = .ok h) : h.Closed ∧ h.nodes = g.nodes := by
  refine Outcome.foldlM_keeps (fun h : Graph => h.Closed ∧ h.nodes = g.nodes) ?_ ⟨closed, rfl⟩ added
  intro m member before after ⟨beforeClosed, beforeNodes⟩ step
  obtain ⟨deps, -, edges⟩ := Outcome.bind_eq_ok_iff.mp step
  refine Outcome.foldlM_keeps (fun h : Graph => h.Closed ∧ h.nodes = g.nodes) ?_
    ⟨beforeClosed, beforeNodes⟩ edges
  intro dep _ earlier later ⟨earlierClosed, earlierNodes⟩ edge
  have node : earlier.contains m.opaqueId = true := by
    rw [Graph.contains_iff, earlierNodes]
    exact Graph.contains_iff.mp (nodes m member)
  obtain ⟨laterClosed, laterNodes⟩ := keeps_of_addDependency earlierClosed node edge
  exact ⟨laterClosed, laterNodes.trans earlierNodes⟩

theorem IsBuilt.wellFormed {s : ModuleSet} (built : s.IsBuilt) : s.WellFormed := by
  obtain ⟨modules, resolver, made⟩ := built
  obtain ⟨start, nodesAdded, edgesAdded, -, rfl⟩ := build_eq_ok_iff.mp made
  obtain ⟨nodes, closed⟩ := nodes_of_addNodes nodesAdded
  have known : ∀ m ∈ s.modules, start.contains m.opaqueId = true := by
    intro m member
    exact Graph.contains_iff.mpr ((nodes _).mpr (List.mem_map_of_mem member))
  obtain ⟨edgesClosed, same⟩ := keeps_of_addDependencies closed known edgesAdded
  exact ⟨fun id => same ▸ nodes id, edgesClosed⟩

theorem WellFormed.exists_member {s : ModuleSet} (wf : s.WellFormed) {id : String}
    (node : id ∈ s.graph.nodes) : ∃ m, s.member id = .ok m := by
  obtain ⟨m, among, rfl⟩ := List.mem_map.mp ((wf.nodes id).mp node)
  have found : (s.findById? m.opaqueId).isSome = true :=
    List.find?_isSome.mpr ⟨m, among, by simp⟩
  obtain ⟨other, here⟩ := Option.isSome_iff_exists.mp found
  refine ⟨other, ?_⟩
  simp [member, here]

/-- In a set that was built, the dependencies of every module are found. -/
theorem WellFormed.deps_total {s : ModuleSet} (wf : s.WellFormed) (m : Module) :
    ∃ deps, s.deps m = .ok deps := by
  refine Outcome.mapM_total fun id reached => ?_
  obtain ⟨found, here⟩ := wf.exists_member (wf.closed.mem_nodes_of_mem_transitiveDeps reached)
  exact ⟨⟨found, _⟩, Outcome.bind_eq_ok_iff.mpr ⟨found, here, rfl⟩⟩

/-! ## A module with a dependency -/

/-- The set of a module and one that it depends on. -/
def pair (m dep : Module) : ModuleSet :=
  ⟨[m, dep], ⟨[(m.opaqueId, [dep.opaqueId]), (dep.opaqueId, [])]⟩⟩

section Pair

variable {m dep : Module} (apart : m.opaqueId ≠ dep.opaqueId)
include apart

theorem isBuilt_pair : (pair m dep).IsBuilt := by
  have other : (dep.opaqueId == m.opaqueId) = false := beq_eq_false_iff_ne.mpr apart.symm
  have nodes : addNodes [m, dep] = .ok ⟨[(m.opaqueId, []), (dep.opaqueId, [])]⟩ := by
    simp [addNodes, Graph.contains, Graph.nodes, Graph.addNode, Graph.empty, apart.symm, pure,
      Except.pure, bind, Except.bind]
  have edges : addDependencies (Resolver.ofTable [(m.opaqueId, [dep.opaqueId])]) [m, dep]
      ⟨[(m.opaqueId, []), (dep.opaqueId, [])]⟩ = .ok (pair m dep).graph := by
    simp [addDependencies, Resolver.ofTable, addDependency, Graph.contains, Graph.nodes,
      Graph.addEdge, Graph.addNode, apart.symm, other, pure, Except.pure, bind, Except.bind, pair,
      List.lookup_cons]
  have acyclic : (pair m dep).graph.findCycle = none := by
    simp [Graph.findCycle, Graph.searchCycle, pair, Graph.nodes, Graph.directDeps, apart,
      apart.symm]
  exact ⟨[m, dep], Resolver.ofTable [(m.opaqueId, [dep.opaqueId])],
    build_eq_ok_iff.mpr ⟨_, nodes, edges, acyclic, rfl⟩⟩

theorem transitiveDeps_pair : (pair m dep).graph.transitiveDeps m.opaqueId = [dep.opaqueId] := by
  simp [pair, Graph.transitiveDeps, Graph.directDeps, Graph.reach, apart, apart.symm]

theorem member_pair : (pair m dep).member dep.opaqueId = .ok dep := by
  simp [member, findById?, pair, apart]

theorem deps_pair : (pair m dep).deps m = .ok [⟨dep, true⟩] := by
  rw [deps, transitiveDeps_pair apart, List.mapM_cons, member_pair apart]
  simp [pair, Graph.directDeps, pure, Except.pure, bind, Except.bind]

theorem remoteDeps_pair : (pair m dep).remoteDeps [m] = .ok [⟨dep, true⟩] := by
  have outside : [(⟨dep, true⟩ : Dependency)].filter
      (fun found => found.module.opaqueId ∉ [m.opaqueId]) = [⟨dep, true⟩] :=
    List.filter_eq_self.mpr (by simpa using apart.symm)
  unfold remoteDeps
  rw [List.mapM_cons, deps_pair apart]
  change Except.ok ((([(⟨dep, true⟩ : Dependency)].filter fun found =>
    found.module.opaqueId ∉ [m.opaqueId]).foldl noteDependency SortedMap.empty).entries.map
      Prod.snd) = _
  rw [outside]
  rfl

theorem localContent_pair (here : m.isLocal = true) (target : m.isTarget = true)
    (remote : dep.isLocal = false) : (pair m dep).localContent = [m] := by
  have ids : (pair m dep).localIds m = [m.opaqueId] := by
    rw [localIds, transitiveDeps_pair apart]
    simp [findById?, pair, apart, remote]
  have targets : (pair m dep).modules.filter (fun m => m.isLocal && m.isTarget) = [m] := by
    simp [pair, here, target, remote]
  unfold localContent
  simp only [targets, List.flatMap_cons, ids]
  simp [pair, apart.symm]

theorem deps_pair_snd : (pair m dep).deps dep = .ok [] := by
  have none : (pair m dep).graph.transitiveDeps dep.opaqueId = [] := by
    simp [pair, Graph.transitiveDeps, Graph.directDeps, Graph.reach, apart]
  rw [deps, none]
  rfl

/-- Nothing outside of the two is needed by them. -/
theorem remoteDeps_pair_both : (pair m dep).remoteDeps [m, dep] = .ok [] := by
  have outside : [(⟨dep, true⟩ : Dependency)].filter
      (fun found => found.module.opaqueId ∉ [m.opaqueId, dep.opaqueId]) = [] :=
    List.filter_eq_nil_iff.mpr (by simp)
  unfold remoteDeps
  rw [List.mapM_cons, deps_pair apart, List.mapM_cons, deps_pair_snd apart]
  change Except.ok ((([(⟨dep, true⟩ : Dependency)].filter fun found =>
    found.module.opaqueId ∉ [m.opaqueId, dep.opaqueId]).foldl noteDependency
      SortedMap.empty).entries.map Prod.snd) = _
  rw [outside]
  rfl

/-- A local module is selected with its local dependency, which need not be a target. -/
theorem localContent_pair_both (here : m.isLocal = true) (target : m.isTarget = true)
    (depHere : dep.isLocal = true) (other : dep.isTarget = false) :
    (pair m dep).localContent = [m, dep] := by
  have ids : (pair m dep).localIds m = [m.opaqueId, dep.opaqueId] := by
    rw [localIds, transitiveDeps_pair apart]
    simp [findById?, pair, apart, depHere]
  have targets : (pair m dep).modules.filter (fun m => m.isLocal && m.isTarget) = [m] := by
    simp [pair, here, target, other]
  unfold localContent
  simp only [targets, List.flatMap_cons, ids]
  simp [pair]

end Pair

end SchemaModules.ModuleSet
