import SchemaModules.Bucket.Memory
import SchemaModules.Proofs.Graph.Additions
import SchemaModules.Proofs.Graph.Cycle
import SchemaModules.Proofs.Module.Dependencies

/-! # Which modules make a set

Modules make a set if their ids are distinct, a resolver succeeds on each of them with ids of the
modules, and no id depends on itself, be it through others (`Accepted`); otherwise the first of
these that fails is reported (`Refused`). In the set, a module lists what it depends on, the direct
dependencies first and as the resolver named them (`Lists`).
-/

namespace SchemaModules.ModuleSet

open Relation (TransGen)

/-- A resolver succeeds on a module and names only ids of the modules as its dependencies. -/
def Resolves (resolver : Resolver) (modules : List Module) (m : Module) : Prop :=
  ∃ named, resolver m modules = .ok named ∧ ∀ dep ∈ named, dep ∈ modules.map (·.opaqueId)

/-- The module of an id depends directly on another id, as a resolver has it. -/
def DependsOn (resolver : Resolver) (modules : List Module) (a b : String) : Prop :=
  ∃ m ∈ modules, m.opaqueId = a ∧ ∃ named, resolver m modules = .ok named ∧ b ∈ named

/-- Modules of which a set can be made with the dependencies that a resolver gives. -/
structure Accepted (resolver : Resolver) (modules : List Module) : Prop where
  distinct : (modules.map (·.opaqueId)).Nodup
  resolved : ∀ m ∈ modules, Resolves resolver modules m
  acyclic : ∀ id, ¬ TransGen (DependsOn resolver modules) id id

/-- Why no set can be made of modules. An id that occurs again comes first, then the first module
on which the resolver fails or for which it names an unknown id, then a cycle. -/
inductive Refused (resolver : Resolver) (modules : List Module) : ModuleError → Prop where
  | duplicate {before after : List Module} {m : Module} (split : modules = before ++ m :: after)
      (distinct : (before.map (·.opaqueId)).Nodup) (again : m.opaqueId ∈ before.map (·.opaqueId)) :
      Refused resolver modules (.duplicateModule m.description)
  | unresolved {before after : List Module} {m : Module} {error : ModuleError}
      (distinct : (modules.map (·.opaqueId)).Nodup) (split : modules = before ++ m :: after)
      (resolved : ∀ earlier ∈ before, Resolves resolver modules earlier)
      (failed : resolver m modules = .error error) : Refused resolver modules error
  | unknown {before after : List Module} {m : Module} {known rest : List String} {dep : String}
      (distinct : (modules.map (·.opaqueId)).Nodup) (split : modules = before ++ m :: after)
      (resolved : ∀ earlier ∈ before, Resolves resolver modules earlier)
      (named : resolver m modules = .ok (known ++ dep :: rest))
      (inside : ∀ other ∈ known, other ∈ modules.map (·.opaqueId))
      (missing : dep ∉ modules.map (·.opaqueId)) :
      Refused resolver modules (.unknownDependency m.description dep)
  | cycle {id : String} (distinct : (modules.map (·.opaqueId)).Nodup)
      (resolved : ∀ m ∈ modules, Resolves resolver modules m)
      (cycle : TransGen (DependsOn resolver modules) id id) : Refused resolver modules (.cycle id)

/-- What a module of a set lists as its dependencies: each module that it depends on once, never
itself, the direct ones first, in the order in which the resolver first named them, and marked. -/
structure Lists (resolver : Resolver) (modules : List Module) (m : Module)
    (deps : List Dependency) : Prop where
  members : ∀ dep ∈ deps, dep.module ∈ modules
  apart : ∀ dep ∈ deps, dep.module.opaqueId ≠ m.opaqueId
  distinct : (deps.map (·.module.opaqueId)).Nodup
  reached : ∀ other ∈ modules, (∃ dep ∈ deps, dep.module = other) ↔
    TransGen (DependsOn resolver modules) m.opaqueId other.opaqueId
  direct : ∃ named, resolver m modules = .ok named ∧
    named.eraseDups <+: deps.map (·.module.opaqueId) ∧
    ∀ dep ∈ deps, dep.isDirect = true ↔ dep.module.opaqueId ∈ named

variable {resolver : Resolver} {modules : List Module}

/-! ## The graph -/

/-- A graph has modules for its nodes, and for those that were asked so far what a resolver names as
dependencies. -/
structure Carries (resolver : Resolver) (modules asked : List Module) (g : Graph) : Prop where
  nodes : g.nodes = modules.map (·.opaqueId)
  named : ∀ m ∈ asked, ∃ named, resolver m modules = .ok named ∧
    (∀ dep ∈ named, dep ∈ modules.map (·.opaqueId)) ∧ g.directDeps m.opaqueId = named.eraseDups
  others : ∀ id, id ∉ asked.map (·.opaqueId) → g.directDeps id = []

theorem carries_of_addNodes {g : Graph} (added : addNodes modules = .ok g) :
    Carries resolver modules [] g := by
  obtain ⟨-, adjacency⟩ := adjacency_of_addNodes added
  refine ⟨by simp [Graph.nodes, adjacency], fun _ member => absurd member List.not_mem_nil, ?_⟩
  intro id _
  refine List.eq_nil_iff_forall_not_mem.mpr fun dep direct => ?_
  obtain ⟨node, member, edge⟩ := Graph.exists_node_of_mem_directDeps direct
  rw [adjacency] at member
  obtain ⟨m, -, rfl⟩ := List.mem_map.mp member
  exact absurd edge List.not_mem_nil

/-- Adding what is named for a module gives it these dependencies, each once. -/
theorem directDeps_of_named {m : Module} {named : List String} {g h : Graph}
    (node : m.opaqueId ∈ g.nodes) (none : g.directDeps m.opaqueId = [])
    (added : named.foldlM (addDependency m) g = .ok h) :
    h.nodes = g.nodes ∧ (∀ dep ∈ named, dep ∈ g.nodes) ∧
      h.directDeps m.opaqueId = named.eraseDups ∧
      ∀ id, id ≠ m.opaqueId → h.directDeps id = g.directDeps id := by
  refine Outcome.foldlM_carries (fun done h => h.nodes = g.nodes ∧ (∀ dep ∈ done, dep ∈ g.nodes) ∧
    h.directDeps m.opaqueId = done.eraseDups ∧
    ∀ id, id ≠ m.opaqueId → h.directDeps id = g.directDeps id) ?_ ?_ added
  · intro done dep rest _ before after ⟨nodes, known, deps, others⟩ step
    unfold addDependency at step
    by_cases there : before.contains dep = true
    · rw [if_pos there] at step
      obtain rfl := Except.ok.inj step
      have here : before.contains m.opaqueId = true := Graph.contains_iff.mpr (nodes ▸ node)
      refine ⟨?_, ?_, ?_, ?_⟩
      · rw [Graph.nodes_addEdge, Graph.addNode_of_contains here, Graph.addNode_of_contains there,
          nodes]
      · intro other member
        rcases List.mem_append.mp member with earlier | last
        · exact known other earlier
        · rw [List.mem_singleton.mp last, ← nodes]
          exact Graph.contains_iff.mp there
      · rw [Graph.directDeps_addEdge, deps, eraseDups_concat]
        by_cases again : dep ∈ done
        · simp [again]
        · simp [again]
      · intro id other
        rw [Graph.directDeps_addEdge, if_neg fun both => other both.1, others id other]
    · simp [there] at step
  · exact ⟨rfl, fun _ member => absurd member List.not_mem_nil, none, fun _ _ => rfl⟩

/-- A module among others with distinct ids has not the id of one before it. -/
theorem fresh_of_split {before after : List Module} {m : Module}
    (distinct : (modules.map (·.opaqueId)).Nodup) (split : modules = before ++ m :: after) :
    m.opaqueId ∉ before.map (·.opaqueId) := by
  rw [split, List.map_append, List.map_cons, List.nodup_append] at distinct
  exact fun early => distinct.2.2 _ early _ List.mem_cons_self rfl

/-- The next module that a resolver is asked for is a node without dependencies, and gets those that
are named for it. -/
theorem Carries.add {before after : List Module} {m : Module} {named : List String} {g h : Graph}
    (carries : Carries resolver modules before g) (distinct : (modules.map (·.opaqueId)).Nodup)
    (split : modules = before ++ m :: after)
    (added : named.foldlM (addDependency m) g = .ok h) :
    h.nodes = modules.map (·.opaqueId) ∧ (∀ dep ∈ named, dep ∈ modules.map (·.opaqueId)) ∧
      h.directDeps m.opaqueId = named.eraseDups ∧
      ∀ id, id ≠ m.opaqueId → h.directDeps id = g.directDeps id := by
  rw [← carries.nodes]
  refine directDeps_of_named ?_ (carries.others _ (fresh_of_split distinct split)) added
  rw [carries.nodes, split]
  exact List.mem_map_of_mem List.mem_append_cons_self

/-- Asking a resolver for the modules one after another gives a graph of what it names. -/
theorem carries_of_addDependencies {asked rest : List Module} {g h : Graph}
    (distinct : (modules.map (·.opaqueId)).Nodup) (split : modules = asked ++ rest)
    (bare : Carries resolver modules [] g)
    (added : asked.foldlM (fun g m => do
      (← resolver m modules).foldlM (addDependency m) g) g = .ok h) :
    Carries resolver modules asked h := by
  refine Outcome.foldlM_carries (Carries resolver modules) ?_ bare added
  rintro done m later rfl before after carries step
  obtain ⟨named, resolved, edges⟩ := Outcome.bind_eq_ok_iff.mp step
  have here : modules = done ++ m :: (later ++ rest) := by simpa using split
  obtain ⟨nodes, known, deps, others⟩ := carries.add distinct here edges
  refine ⟨nodes, ?_, ?_⟩
  · intro other member
    rcases List.mem_append.mp member with earlier | last
    · obtain ⟨theirs, found, inside, kept⟩ := carries.named other earlier
      have apart :=
        ne_of_mem_of_not_mem (List.mem_map_of_mem earlier) (fresh_of_split distinct here)
      exact ⟨theirs, found, inside, (others _ apart).trans kept⟩
    · obtain rfl := List.mem_singleton.mp last
      exact ⟨named, resolved, known, deps⟩
  · intro id absent
    rw [List.map_append, List.mem_append, not_or] at absent
    rw [others id fun same => absent.2 (by simp [same]), carries.others id absent.1]

/-- The edges of the graph are the direct dependencies that the resolver gives. -/
theorem Carries.edge_eq {g : Graph} (carries : Carries resolver modules modules g) :
    g.Edge = DependsOn resolver modules := by
  funext a b
  apply propext
  constructor
  · intro edge
    have member : a ∈ modules.map (·.opaqueId) := by
      refine Decidable.byContradiction fun other => ?_
      rw [Graph.Edge, carries.others a other] at edge
      exact absurd edge List.not_mem_nil
    obtain ⟨m, among, rfl⟩ := List.mem_map.mp member
    obtain ⟨named, resolved, -, deps⟩ := carries.named m among
    rw [Graph.Edge, deps, List.mem_eraseDups] at edge
    exact ⟨m, among, rfl, named, resolved, edge⟩
  · rintro ⟨m, among, rfl, named, resolved, member⟩
    obtain ⟨same, again, -, deps⟩ := carries.named m among
    obtain rfl := Except.ok.inj (resolved.symm.trans again)
    rw [Graph.Edge, deps, List.mem_eraseDups]
    exact member

/-! ## Acceptance -/

/-- A set is built of the modules and of a graph of what the resolver names, without a cycle. -/
theorem carries_of_build {s : ModuleSet} (built : build modules resolver = .ok s) :
    s.modules = modules ∧ (modules.map (·.opaqueId)).Nodup ∧
      Carries resolver modules modules s.graph ∧ s.graph.findCycle = none := by
  obtain ⟨start, nodesAdded, edgesAdded, acyclic, same⟩ := build_eq_ok_iff.mp built
  have distinct := (adjacency_of_addNodes nodesAdded).1
  have bare : Carries resolver modules [] start := carries_of_addNodes nodesAdded
  exact ⟨same, distinct,
    carries_of_addDependencies distinct (List.append_nil _).symm bare edgesAdded, acyclic⟩

theorem Carries.resolves {g : Graph} {asked : List Module}
    (carries : Carries resolver modules asked g) : ∀ m ∈ asked, Resolves resolver modules m := by
  intro m member
  obtain ⟨named, resolved, inside, -⟩ := carries.named m member
  exact ⟨named, resolved, inside⟩

theorem accepted_of_build {s : ModuleSet} (built : build modules resolver = .ok s) :
    Accepted resolver modules := by
  obtain ⟨-, distinct, carries, acyclic⟩ := carries_of_build built
  refine ⟨distinct, carries.resolves, ?_⟩
  rw [← carries.edge_eq]
  exact Graph.acyclic_of_findCycle acyclic

/-! ## Refusal -/

theorem refused_of_addNodes {e : ModuleError} (failed : addNodes modules = .error e) :
    Refused resolver modules e := by
  obtain ⟨before, m, after, mid, split, done, stopped⟩ := Outcome.exists_of_foldlM_error failed
  obtain ⟨distinct, adjacency⟩ := adjacency_of_addNodes done
  by_cases known : mid.contains m.opaqueId = true
  · rw [if_pos known] at stopped
    obtain rfl := Except.error.inj stopped
    refine .duplicate split distinct ?_
    simpa [Graph.contains_iff, Graph.nodes, adjacency] using known
  · simp [known] at stopped

theorem refused_of_addDependencies {g : Graph} {e : ModuleError}
    (distinct : (modules.map (·.opaqueId)).Nodup) (bare : Carries resolver modules [] g)
    (failed : addDependencies resolver modules g = .error e) : Refused resolver modules e := by
  obtain ⟨before, m, after, mid, split, done, stopped⟩ := Outcome.exists_of_foldlM_error failed
  have carries : Carries resolver modules before mid :=
    carries_of_addDependencies distinct split bare done
  rcases Outcome.bind_eq_error_iff.mp stopped with unresolved | ⟨named, resolved, edgeFailed⟩
  · exact .unresolved distinct split carries.resolves unresolved
  · obtain ⟨known, dep, rest, last, rfl, reached, missing⟩ :=
      Outcome.exists_of_foldlM_error edgeFailed
    obtain ⟨nodes, inside, -⟩ := carries.add distinct split reached
    unfold addDependency at missing
    by_cases there : last.contains dep = true
    · simp [there] at missing
    · rw [if_neg there] at missing
      obtain rfl := Except.error.inj missing
      rw [Graph.contains_iff, nodes] at there
      exact .unknown distinct split carries.resolves resolved inside there

/-- All nodes are added before a resolver is asked, and all edges before a cycle is searched for. -/
theorem refused_of_build {e : ModuleError} (failed : build modules resolver = .error e) :
    Refused resolver modules e := by
  rcases Outcome.bind_eq_error_iff.mp failed with nodesFailed | ⟨start, nodesAdded, remaining⟩
  · exact refused_of_addNodes nodesFailed
  have distinct := (adjacency_of_addNodes nodesAdded).1
  have bare : Carries resolver modules [] start := carries_of_addNodes nodesAdded
  rcases Outcome.bind_eq_error_iff.mp remaining with edgesFailed | ⟨g, edgesAdded, checked⟩
  · exact refused_of_addDependencies distinct bare edgesFailed
  have carries : Carries resolver modules modules g :=
    carries_of_addDependencies distinct (List.append_nil _).symm bare edgesAdded
  cases cycle : g.findCycle with
  | none => simp [cycle, pure, Except.pure] at checked
  | some id =>
      simp only [cycle] at checked
      obtain rfl := Except.error.inj checked
      refine .cycle distinct carries.resolves ?_
      rw [← carries.edge_eq]
      exact Graph.cycle_of_findCycle cycle

/-- Modules that make a set are not refused for any reason. -/
theorem Accepted.not_refused (accepted : Accepted resolver modules) {e : ModuleError} :
    ¬ Refused resolver modules e := by
  intro refused
  cases refused with
  | duplicate split distinct again => exact fresh_of_split accepted.distinct split again
  | unresolved distinct split resolved failed =>
      obtain ⟨named, found, -⟩ := accepted.resolved _ (split ▸ List.mem_append_cons_self)
      exact nomatch failed.symm.trans found
  | unknown distinct split resolved named inside missing =>
      obtain ⟨same, found, known⟩ := accepted.resolved _ (split ▸ List.mem_append_cons_self)
      obtain rfl := Except.ok.inj (named.symm.trans found)
      exact missing (known _ List.mem_append_cons_self)
  | cycle distinct resolved cycle => exact accepted.acyclic _ cycle

/-! ## What a module of a set depends on -/

/-- In a set, the dependencies of a module are those that the resolver leads to. -/
theorem exists_lists_of_build {s : ModuleSet} (built : build modules resolver = .ok s) {m : Module}
    (member : m ∈ modules) : ∃ deps, s.deps m = .ok deps ∧ Lists resolver modules m deps := by
  obtain ⟨rfl, -, carries, acyclic⟩ := carries_of_build built
  have isBuilt : s.IsBuilt := ⟨s.modules, resolver, built⟩
  obtain ⟨deps, found⟩ := isBuilt.wellFormed.deps_total m
  have each := forall₂_of_deps found
  have ids : s.graph.transitiveDeps m.opaqueId = deps.map (·.module.opaqueId) := by
    rw [← List.forall₂_eq_eq_eq, List.forall₂_map_right_iff]
    exact each.imp fun _ _ related => related.2.1.symm
  have reached : ∀ id, id ∈ deps.map (·.module.opaqueId) ↔
      id ≠ m.opaqueId ∧ TransGen (DependsOn resolver s.modules) m.opaqueId id := by
    intro id
    rw [← ids, ← carries.edge_eq]
    exact Graph.mem_transitiveDeps_iff
  obtain ⟨named, resolved, -, directDeps⟩ := carries.named m member
  refine ⟨deps, found, ?_⟩
  exact {
    members := by
      intro dep listed
      obtain ⟨_, _, among, _⟩ := Outcome.exists_of_forall₂ each listed
      exact among
    apart := fun dep listed => ((reached _).mp (List.mem_map_of_mem listed)).1
    distinct := ids ▸ Graph.nodup_reach ..
    reached := by
      intro other among
      constructor
      · rintro ⟨dep, listed, rfl⟩
        exact ((reached _).mp (List.mem_map_of_mem listed)).2
      · intro path
        have apart : other.opaqueId ≠ m.opaqueId := by
          intro same
          rw [same, ← carries.edge_eq] at path
          exact Graph.acyclic_of_findCycle acyclic _ path
        obtain ⟨dep, listed, same⟩ := List.mem_map.mp ((reached _).mpr ⟨apart, path⟩)
        obtain ⟨_, _, inside, _⟩ := Outcome.exists_of_forall₂ each listed
        exact ⟨dep, listed, isBuilt.eq_of_opaqueId inside among same⟩
    direct := by
      refine ⟨named, resolved, ?_, ?_⟩
      · rw [← ids, ← directDeps]
        refine Graph.directDeps_prefix ?_ ?_
        · rw [directDeps]
          exact nodup_eraseDups named
        · intro own
          exact Graph.acyclic_of_findCycle acyclic _ (.single own)
      · intro dep listed
        obtain ⟨id, _, _, rfl, marked⟩ := Outcome.exists_of_forall₂ each listed
        rw [marked, directDeps, decide_eq_true_iff, List.mem_eraseDups] }

/-- Modules make a set if they are accepted, and otherwise the reason why not is reported. In the
set, which is of these modules, each module has its dependencies. -/
theorem build_spec (resolver : Resolver) (modules : List Module) :
    ((∃ s, build modules resolver = .ok s) ↔ Accepted resolver modules) ∧
      (∀ e, build modules resolver = .error e → Refused resolver modules e) ∧
      ∀ s, build modules resolver = .ok s → s.modules = modules ∧
        ∀ m ∈ modules, ∃ deps, s.deps m = .ok deps ∧ Lists resolver modules m deps := by
  refine ⟨⟨?_, ?_⟩, fun _ => refused_of_build, ?_⟩
  · rintro ⟨s, built⟩
    exact accepted_of_build built
  · intro accepted
    cases result : build modules resolver with
    | ok s => exact ⟨s, rfl⟩
    | error e => exact absurd (refused_of_build result) accepted.not_refused
  · intro s built
    exact ⟨(carries_of_build built).1, fun _ member => exists_lists_of_build built member⟩

/-- A module that names another twice, and one of which that depends as well, make a set in which
it lists both; alone, it is refused. -/
theorem build_spec_of_shared_dependency : ∃ (resolver : Resolver) (app lib base : Module),
    resolver app [app, lib, base] = .ok [base.opaqueId, lib.opaqueId, base.opaqueId] ∧
      (∃ s deps, build [app, lib, base] resolver = .ok s ∧ s.deps app = .ok deps ∧
        Lists resolver [app, lib, base] app deps) ∧
      ∃ e, build [app] resolver = .error e ∧ Refused resolver [app] e := by
  let app := Module.edited "app" MemoryBucket.empty.toBucket none true
  let lib := Module.edited "lib" MemoryBucket.empty.toBucket none true
  let base := Module.edited "base" MemoryBucket.empty.toBucket none true
  let resolver := Resolver.ofTable [("app", ["base", "lib", "base"]), ("lib", ["base"])]
  let g : Graph := ⟨[("app", ["base", "lib"]), ("lib", ["base"]), ("base", [])]⟩
  have edges : addDependencies resolver [app, lib, base]
      ⟨[("app", []), ("lib", []), ("base", [])]⟩ = .ok g := by
    simp [addDependencies, resolver, Resolver.ofTable, app, lib, base, Module.edited,
      Module.opaqueId, List.lookup_cons, addDependency, Graph.contains, Graph.nodes, Graph.addEdge,
      Graph.addNode, pure, Except.pure, bind, Except.bind, g]
  have acyclic : g.findCycle = none := by
    simp [g, Graph.findCycle, Graph.searchCycle, Graph.nodes, Graph.directDeps]
  have built : build [app, lib, base] resolver = .ok ⟨[app, lib, base], g⟩ :=
    build_eq_ok_iff.mpr ⟨_, rfl, edges, acyclic, rfl⟩
  have refused : build [app] resolver = .error (.unknownDependency app.description "base") := rfl
  obtain ⟨deps, found, lists⟩ :=
    ((build_spec resolver [app, lib, base]).2.2 _ built).2 app List.mem_cons_self
  exact ⟨resolver, app, lib, base, rfl, ⟨_, deps, built, found, lists⟩, _, refused,
    (build_spec resolver [app]).2.1 _ refused⟩

end SchemaModules.ModuleSet
