import SchemaModules.Proofs.Graph.Reachability
import SchemaModules.Proofs.Module.Set
import SchemaModules.Proofs.SortedMap

/-! # What a group of modules depends on

The modules of a set that was built have distinct ids, so their dependencies are modules of the set
as the graph has them. What a group needs from outside is every module that edges lead to from one
of the group and that is not in it (`mem_remoteDeps_iff`).
-/

namespace SchemaModules.ModuleSet

open Relation (TransGen)

variable {s : ModuleSet}

/-- The modules of a set that was built have distinct ids. -/
theorem IsBuilt.nodup (built : s.IsBuilt) : (s.modules.map (·.opaqueId)).Nodup := by
  obtain ⟨modules, resolver, made⟩ := built
  obtain ⟨start, nodesAdded, -, -, rfl⟩ := build_eq_ok_iff.mp made
  exact (adjacency_of_addNodes nodesAdded).1

theorem IsBuilt.eq_of_opaqueId (built : s.IsBuilt) {m other : Module} (first : m ∈ s.modules)
    (second : other ∈ s.modules) (same : m.opaqueId = other.opaqueId) : m = other :=
  List.inj_on_of_nodup_map built.nodup first second same

theorem of_member {id : String} {m : Module} (found : s.member id = .ok m) :
    m ∈ s.modules ∧ m.opaqueId = id := by
  unfold member at found
  cases here : s.findById? id with
  | none =>
      rw [here] at found
      cases found
  | some other =>
      rw [here] at found
      obtain rfl := Except.ok.inj found
      have same := List.find?_some here
      exact ⟨List.mem_of_find?_eq_some here, of_decide_eq_true same⟩

/-- What is published of a set that was built is local. -/
theorem IsBuilt.isLocal_of_mem_localContent (built : s.IsBuilt) {m : Module}
    (selected : m ∈ s.localContent) : m.isLocal = true := by
  obtain ⟨member, listed⟩ := List.mem_filter.mp selected
  obtain ⟨target, among, reached⟩ := List.mem_flatMap.mp (of_decide_eq_true listed)
  obtain ⟨targetMember, isTarget⟩ := List.mem_filter.mp among
  rcases List.mem_cons.mp reached with same | dependency
  · rw [built.eq_of_opaqueId member targetMember same]
    exact (Bool.and_eq_true_iff.mp isTarget).1
  · obtain ⟨other, found, here⟩ :=
      (Option.any_eq_true _ _).mp (List.mem_filter.mp dependency).2
    have same := List.find?_some found
    rwa [built.eq_of_opaqueId (List.mem_of_find?_eq_some found) member (of_decide_eq_true same)]
      at here

/-- The dependencies of a module are modules of the set, with the ids that the graph gives in this
order and marked as the graph has them. -/
theorem forall₂_of_deps {m : Module} {deps : List Dependency} (found : s.deps m = .ok deps) :
    List.Forall₂ (fun id dep => dep.module ∈ s.modules ∧ dep.module.opaqueId = id ∧
      dep.isDirect = decide (id ∈ s.graph.directDeps m.opaqueId))
      (s.graph.transitiveDeps m.opaqueId) deps := by
  refine (Outcome.mapM_eq_ok_iff.mp found).imp ?_
  intro id dep made
  obtain ⟨other, here, same⟩ := Outcome.bind_eq_ok_iff.mp made
  obtain rfl := Outcome.pure_eq_ok_iff.mp same
  obtain ⟨member, named⟩ := of_member here
  exact ⟨member, named, rfl⟩

theorem ids_of_deps {m : Module} {deps : List Dependency} (found : s.deps m = .ok deps) :
    (∀ dep ∈ deps, dep.module ∈ s.modules ∧
        dep.module.opaqueId ∈ s.graph.transitiveDeps m.opaqueId) ∧
      ∀ id ∈ s.graph.transitiveDeps m.opaqueId, ∃ dep ∈ deps, dep.module.opaqueId = id := by
  have each := forall₂_of_deps found
  refine ⟨?_, ?_⟩
  · intro dep member
    obtain ⟨id, reached, among, rfl, -⟩ := Outcome.exists_of_forall₂ each member
    exact ⟨among, reached⟩
  · intro id reached
    obtain ⟨dep, member, -, same, -⟩ := Outcome.exists_of_forall₂ each.flip reached
    exact ⟨dep, member, same⟩

/-! ## Dependencies noted once -/

/-- Notes of dependencies are filed under their ids, and are of modules of a kind. -/
def IsNoted (kind : Module → Prop) (noted : SortedMap String Dependency) : Prop :=
  ∀ id dep, noted.find? id = some dep → dep.module.opaqueId = id ∧ kind dep.module

variable {kind : Module → Prop} {noted : SortedMap String Dependency}

theorem IsNoted.noteDependency (sound : IsNoted kind noted) {dep : Dependency}
    (fits : kind dep.module) : IsNoted kind (noteDependency noted dep) := by
  intro id known found
  unfold ModuleSet.noteDependency at found
  rw [SortedMap.find?_insert] at found
  by_cases same : id = dep.module.opaqueId
  · rw [if_pos same] at found
    obtain rfl := Option.some.inj found
    cases before : noted.find? dep.module.opaqueId with
    | none => exact ⟨same.symm, fits⟩
    | some earlier =>
        obtain ⟨filed, kept⟩ := sound _ _ before
        exact ⟨filed.trans same.symm, kept⟩
  · rw [if_neg same] at found
    exact sound id known found

theorem mem_keys_noteDependency (noted : SortedMap String Dependency) (dep : Dependency)
    (id : String) :
    id ∈ (noteDependency noted dep).keys ↔ id = dep.module.opaqueId ∨ id ∈ noted.keys :=
  SortedMap.mem_keys_insert ..

theorem noted_of_foldl {deps : List Dependency} (sound : IsNoted kind noted)
    (fits : ∀ dep ∈ deps, kind dep.module) :
    IsNoted kind (deps.foldl noteDependency noted) ∧
      ∀ id, id ∈ (deps.foldl noteDependency noted).keys ↔
        id ∈ deps.map (·.module.opaqueId) ∨ id ∈ noted.keys := by
  induction deps generalizing noted with
  | nil => exact ⟨sound, by simp⟩
  | cons dep rest ih =>
      obtain ⟨here, later⟩ := List.forall_mem_cons.mp fits
      obtain ⟨kept, keys⟩ := ih (sound.noteDependency here) later
      refine ⟨kept, fun id => ?_⟩
      rw [List.foldl_cons, keys, mem_keys_noteDependency, List.map_cons, List.mem_cons]
      tauto

/-! ## What a group needs from outside -/

/-- A set can always be asked what a group of modules needs from outside. -/
theorem WellFormed.remoteDeps_total (wf : s.WellFormed) (group : List Module) :
    ∃ deps, s.remoteDeps group = .ok deps := by
  obtain ⟨found, each⟩ := @Outcome.mapM_total _ _ _ s.deps group fun m _ => wf.deps_total m
  exact ⟨_, Outcome.bind_eq_ok_iff.mpr ⟨found, each, rfl⟩⟩

/-- A group of modules needs another: edges lead to it from one of the group, in which it is not. -/
structure Needs (s : ModuleSet) (group : List Module) (m : Module) : Prop where
  member : m ∈ s.modules
  reached : ∃ a ∈ group, TransGen s.graph.Edge a.opaqueId m.opaqueId
  outside : m ∉ group

/-- In a set that was built, the modules that are found outside a group are those that it needs. -/
theorem mem_remoteDeps_iff (built : s.IsBuilt) {group : List Module}
    (inside : ∀ a ∈ group, a ∈ s.modules) {deps : List Dependency}
    (found : s.remoteDeps group = .ok deps) (m : Module) :
    (∃ dep ∈ deps, dep.module = m) ↔ s.Needs group m := by
  unfold remoteDeps at found
  obtain ⟨all, gathered, rest⟩ := Outcome.bind_eq_ok_iff.mp found
  obtain rfl := Outcome.pure_eq_ok_iff.mp rest
  have each := Outcome.mapM_eq_ok_iff.mp gathered
  set members := group.map (·.opaqueId)
  set outside := all.flatten.filter fun dep => dep.module.opaqueId ∉ members with outsideDef
  have absent : ∀ {m : Module}, m ∈ s.modules → (m.opaqueId ∉ members ↔ m ∉ group) := by
    intro m member
    refine not_congr ⟨?_, List.mem_map_of_mem⟩
    intro listed
    obtain ⟨a, among, same⟩ := List.mem_map.mp listed
    rwa [← built.eq_of_opaqueId (inside a among) member same]
  have fits : ∀ dep ∈ outside, s.Needs group dep.module := by
    intro dep listed
    obtain ⟨among, apart⟩ := List.mem_filter.mp listed
    obtain ⟨deps, part, member⟩ := List.mem_flatten.mp among
    obtain ⟨a, source, made⟩ := Outcome.exists_of_forall₂ each part
    obtain ⟨here, reached⟩ := (ids_of_deps made).1 dep member
    exact {
      member := here
      reached := ⟨a, source, (Graph.mem_transitiveDeps_iff.mp reached).2⟩
      outside := (absent here).mp (of_decide_eq_true apart) }
  have none : IsNoted (s.Needs group) SortedMap.empty := fun _ _ impossible => nomatch impossible
  obtain ⟨sound, keys⟩ := noted_of_foldl none fits
  constructor
  · rintro ⟨dep, member, rfl⟩
    obtain ⟨⟨id, _⟩, entry, rfl⟩ := List.mem_map.mp member
    exact (sound id _ ((SortedMap.find?_eq_some_iff ..).mpr entry)).2
  · intro needs
    obtain ⟨a, source, path⟩ := needs.reached
    obtain ⟨deps, part, made⟩ := Outcome.exists_of_forall₂ each.flip source
    have other : m.opaqueId ≠ a.opaqueId := by
      intro same
      exact (absent needs.member).mpr needs.outside (same ▸ List.mem_map_of_mem source)
    obtain ⟨dep, member, same⟩ :=
      (ids_of_deps made).2 m.opaqueId (Graph.mem_transitiveDeps_iff.mpr ⟨other, path⟩)
    have listed : dep ∈ outside := by
      refine List.mem_filter.mpr ⟨List.mem_flatten.mpr ⟨deps, part, member⟩, ?_⟩
      rw [same]
      exact decide_eq_true ((absent needs.member).mpr needs.outside)
    have key : m.opaqueId ∈ (outside.foldl noteDependency SortedMap.empty).keys :=
      (keys _).mpr (.inl (same ▸ List.mem_map_of_mem listed))
    obtain ⟨known, entry⟩ := (SortedMap.mem_keys_iff ..).mp key
    obtain ⟨filed, kept⟩ := sound _ known entry
    refine ⟨known, List.mem_map_of_mem ((SortedMap.find?_eq_some_iff ..).mp entry), ?_⟩
    exact built.eq_of_opaqueId kept.member needs.member filed

end SchemaModules.ModuleSet
