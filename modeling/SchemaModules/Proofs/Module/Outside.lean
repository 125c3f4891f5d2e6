import SchemaModules.Proofs.Module.Order

/-! # What is listed as needed from outside a group of modules

A group of modules needs the modules that one of the group depends on, directly or through others,
and that are not in it. They are listed by ascending ids, and marked if one of the group depends on
them directly (`ListsOutside`). Which modules are in the group determines this list
(`ListsOutside.unique`), so neither their order nor how often they are given makes a difference.
-/

namespace SchemaModules.ModuleSet

open Relation (TransGen)

/-- What is listed as needed from outside a group of modules: each module that one of the group
depends on and that is not in the group, by ascending ids, and marked if one of the group depends on
it directly. -/
structure ListsOutside (resolver : Resolver) (modules group : List Module)
    (deps : List Dependency) : Prop where
  ascending : (deps.map (·.module.opaqueId)).Pairwise (· < ·)
  members : ∀ dep ∈ deps, dep.module ∈ modules
  reached : ∀ other ∈ modules, (∃ dep ∈ deps, dep.module = other) ↔
    other ∉ group ∧ ∃ m ∈ group, TransGen (DependsOn resolver modules) m.opaqueId other.opaqueId
  direct : ∀ dep ∈ deps, dep.isDirect = true ↔
    ∃ m ∈ group, DependsOn resolver modules m.opaqueId dep.module.opaqueId

variable {resolver : Resolver} {modules group : List Module} {s : ModuleSet}

/-! ## Which modules are in the group -/

theorem ListsOutside.congr {other : List Module} {deps : List Dependency}
    (lists : ListsOutside resolver modules other deps) (same : ∀ m, m ∈ other ↔ m ∈ group) :
    ListsOutside resolver modules group deps where
  ascending := lists.ascending
  members := lists.members
  reached := by simpa only [same] using lists.reached
  direct := by simpa only [same] using lists.direct

theorem ListsOutside.subset {deps others : List Dependency}
    (left : ListsOutside resolver modules group deps)
    (right : ListsOutside resolver modules group others) : ∀ dep ∈ deps, dep ∈ others := by
  intro dep listed
  have known := left.members dep listed
  obtain ⟨found, listedToo, same⟩ :=
    (right.reached _ known).mpr ((left.reached _ known).mp ⟨dep, listed, rfl⟩)
  have marked : found.isDirect = dep.isDirect := by
    rw [Bool.eq_iff_iff, right.direct found listedToo, same, left.direct dep listed]
  cases dep
  cases found
  cases same
  cases marked
  exact listedToo

/-- A group needs one list from outside. -/
theorem ListsOutside.unique {deps others : List Dependency}
    (left : ListsOutside resolver modules group deps)
    (right : ListsOutside resolver modules group others) : deps = others := by
  have nodup : ∀ {list : List Dependency}, ListsOutside resolver modules group list →
      list.Nodup := fun lists => .of_map _ (lists.ascending.imp String.ne_of_lt)
  refine List.Perm.eq_of_pairwise ?_ (List.pairwise_map.mp left.ascending)
    (List.pairwise_map.mp right.ascending)
    ((List.perm_ext_iff_of_nodup (nodup left) (nodup right)).mpr fun dep =>
      ⟨left.subset right dep, right.subset left dep⟩)
  intro a b _ _ before after
  exact absurd after (String.lt_asymm before)

/-! ## Dependencies marked as direct -/

/-- A dependency is noted under an id, and as direct. -/
def IsMarked (noted : SortedMap String Dependency) (id : String) : Prop :=
  ∃ dep, noted.find? id = some dep ∧ dep.isDirect = true

theorem isMarked_noteDependency (noted : SortedMap String Dependency) (dep : Dependency)
    (id : String) : IsMarked (noteDependency noted dep) id ↔
      (dep.module.opaqueId = id ∧ dep.isDirect = true) ∨ IsMarked noted id := by
  unfold IsMarked
  rw [find?_noteDependency]
  by_cases same : dep.module.opaqueId = id
  · subst same
    cases noted.find? dep.module.opaqueId with
    | none => simp
    | some known => simp [or_comm]
  · simp [same, Ne.symm same]

theorem not_isMarked_empty (id : String) : ¬ IsMarked SortedMap.empty id := by
  rintro ⟨_, impossible, -⟩
  exact nomatch impossible

theorem isMarked_iff_of_find? {noted : SortedMap String Dependency} {id : String}
    {dep : Dependency} (found : noted.find? id = some dep) :
    IsMarked noted id ↔ dep.isDirect = true := by
  simp [IsMarked, found]

/-- A direct dependency marks its id, whatever else is noted under it. -/
theorem isMarked_foldl (deps : List Dependency) (noted : SortedMap String Dependency)
    (id : String) : IsMarked (deps.foldl noteDependency noted) id ↔
      (∃ dep ∈ deps, dep.module.opaqueId = id ∧ dep.isDirect = true) ∨ IsMarked noted id := by
  induction deps generalizing noted with
  | nil => simp
  | cons dep rest ih =>
      rw [List.foldl_cons, ih, isMarked_noteDependency, List.exists_mem_cons_iff, ← or_assoc]
      exact or_congr_left or_comm

/-- Of the dependencies of modules, some one is direct under an id if an edge leads there from one of
the modules that has not this id itself. -/
theorem exists_direct_iff {all : List (List Dependency)}
    (each : List.Forall₂ (fun m deps => s.deps m = .ok deps) group all) (id : String) :
    (∃ dep ∈ all.flatten, dep.module.opaqueId = id ∧ dep.isDirect = true) ↔
      ∃ m ∈ group, id ≠ m.opaqueId ∧ s.graph.Edge m.opaqueId id := by
  constructor
  · rintro ⟨dep, gathered, rfl, direct⟩
    obtain ⟨deps, part, listed⟩ := List.mem_flatten.mp gathered
    obtain ⟨m, member, found⟩ := Outcome.exists_of_forall₂ each part
    obtain ⟨id, reached, -, rfl, marked⟩ := Outcome.exists_of_forall₂ (forall₂_of_deps found) listed
    rw [marked, decide_eq_true_iff] at direct
    exact ⟨m, member, (Graph.mem_transitiveDeps_iff.mp reached).1, direct⟩
  · rintro ⟨m, member, apart, edge⟩
    obtain ⟨deps, part, found⟩ := Outcome.exists_of_forall₂ each.flip member
    have reached := Graph.mem_transitiveDeps_iff.mpr ⟨apart, .single edge⟩
    obtain ⟨dep, listed, -, named, marked⟩ :=
      Outcome.exists_of_forall₂ (forall₂_of_deps found).flip reached
    refine ⟨dep, List.mem_flatten.mpr ⟨deps, part, listed⟩, named, ?_⟩
    rw [marked, decide_eq_true_iff]
    exact edge

/-! ## The list -/

section Noted

variable {kind : Module → Prop} {noted : SortedMap String Dependency}

theorem IsNoted.find?_eq (sound : IsNoted kind noted) {dep : Dependency}
    (listed : dep ∈ noted.entries.map Prod.snd) :
    noted.find? dep.module.opaqueId = some dep ∧ kind dep.module := by
  obtain ⟨⟨id, dep⟩, member, rfl⟩ := List.mem_map.mp listed
  have here : noted.find? id = some dep := (SortedMap.find?_eq_some_iff ..).mpr member
  obtain ⟨filed, fits⟩ := sound id dep here
  exact ⟨filed.symm ▸ here, fits⟩

theorem IsNoted.ids_eq (sound : IsNoted kind noted) :
    (noted.entries.map Prod.snd).map (·.module.opaqueId) = noted.keys := by
  rw [List.map_map, SortedMap.keys]
  refine List.map_congr_left fun entry member => ?_
  exact (sound _ _ ((SortedMap.find?_eq_some_iff ..).mpr member)).1

end Noted

/-- What is found outside a group is noted of the dependencies of each of the group. -/
theorem noted_of_remoteDeps {deps : List Dependency} (found : s.remoteDeps group = .ok deps) :
    ∃ all, List.Forall₂ (fun m deps => s.deps m = .ok deps) group all ∧
      deps = ((all.flatten.filter fun dep =>
        dep.module.opaqueId ∉ group.map (·.opaqueId)).foldl noteDependency
          SortedMap.empty).entries.map Prod.snd := by
  unfold remoteDeps at found
  obtain ⟨all, gathered, rest⟩ := Outcome.bind_eq_ok_iff.mp found
  exact ⟨all, Outcome.mapM_eq_ok_iff.mp gathered, (Outcome.pure_eq_ok_iff.mp rest).symm⟩

/-- What is found outside a group ascends, and is marked where an edge leads there from the group. -/
theorem marked_of_remoteDeps {deps : List Dependency} (found : s.remoteDeps group = .ok deps) :
    (deps.map (·.module.opaqueId)).Pairwise (· < ·) ∧ ∀ dep ∈ deps, dep.isDirect = true ↔
      ∃ m ∈ group, s.graph.Edge m.opaqueId dep.module.opaqueId := by
  obtain ⟨all, each, rfl⟩ := noted_of_remoteDeps found
  set members := group.map (·.opaqueId) with membersDef
  have fits : ∀ dep ∈ all.flatten.filter fun dep => dep.module.opaqueId ∉ members,
      dep.module.opaqueId ∉ members :=
    fun dep listed => of_decide_eq_true (List.mem_filter.mp listed).2
  have none : IsNoted (·.opaqueId ∉ members) SortedMap.empty :=
    fun _ _ impossible => nomatch impossible
  obtain ⟨sound, -⟩ := noted_of_foldl none fits
  refine ⟨?_, ?_⟩
  · rw [sound.ids_eq]
    exact SortedMap.keys_ascending _
  · intro dep listed
    obtain ⟨here, apart⟩ := sound.find?_eq listed
    rw [← isMarked_iff_of_find? here, isMarked_foldl, or_iff_left (not_isMarked_empty _)]
    constructor
    · rintro ⟨other, passed, named⟩
      obtain ⟨m, member, -, edge⟩ :=
        (exists_direct_iff each _).mp ⟨other, (List.mem_filter.mp passed).1, named⟩
      exact ⟨m, member, edge⟩
    · rintro ⟨m, member, edge⟩
      have away : dep.module.opaqueId ≠ m.opaqueId := fun same =>
        apart (same ▸ List.mem_map_of_mem member)
      obtain ⟨other, gathered, named, direct⟩ :=
        (exists_direct_iff each _).mpr ⟨m, member, away, edge⟩
      refine ⟨other, List.mem_filter.mpr ⟨gathered, ?_⟩, named, direct⟩
      rw [named]
      exact decide_eq_true apart

/-- What is found outside a group is what the resolver leads to from it. -/
theorem listsOutside_of_remoteDeps (built : build modules resolver = .ok s)
    (inside : ∀ m ∈ group, m ∈ modules) {deps : List Dependency}
    (found : s.remoteDeps group = .ok deps) : ListsOutside resolver modules group deps := by
  obtain ⟨rfl, -, carries, -⟩ := carries_of_build built
  have needed := mem_remoteDeps_iff ⟨_, resolver, built⟩ inside found
  obtain ⟨ascending, marked⟩ := marked_of_remoteDeps found
  rw [carries.edge_eq] at marked
  exact {
    ascending := ascending
    members := fun dep listed => ((needed _).mp ⟨dep, listed, rfl⟩).member
    reached := by
      intro other known
      rw [needed, ← carries.edge_eq]
      constructor
      · rintro ⟨-, reached, outside⟩
        exact ⟨outside, reached⟩
      · rintro ⟨outside, reached⟩
        exact ⟨known, reached, outside⟩
    direct := marked }

/-- In a set that was built, what a group of its modules needs from outside is found. It is the same
for every group of the same modules. -/
theorem remoteDeps_spec (built : build modules resolver = .ok s)
    (inside : ∀ m ∈ group, m ∈ modules) :
    ∃ deps, s.remoteDeps group = .ok deps ∧ ListsOutside resolver modules group deps ∧
      ∀ other : List Module, (∀ m, m ∈ other ↔ m ∈ group) → s.remoteDeps other = .ok deps := by
  have wf : s.WellFormed := IsBuilt.wellFormed ⟨modules, resolver, built⟩
  obtain ⟨deps, found⟩ := wf.remoteDeps_total group
  have lists := listsOutside_of_remoteDeps built inside found
  refine ⟨deps, found, lists, fun other same => ?_⟩
  obtain ⟨others, foundToo⟩ := wf.remoteDeps_total other
  have insideToo : ∀ m ∈ other, m ∈ modules := fun m member => inside m ((same m).mp member)
  have listsToo := listsOutside_of_remoteDeps built insideToo foundToo
  rw [lists.unique (listsToo.congr same), foundToo]

/-- Of four modules in a row, the first two need the others from outside: the third directly, as the
second has it, and the fourth not. Giving them twice and in another order makes no difference. -/
theorem remoteDeps_spec_of_two_in_a_row : ∃ (resolver : Resolver) (app lib base tool : Module)
    (s : ModuleSet), build [app, lib, base, tool] resolver = .ok s ∧
      ListsOutside resolver [app, lib, base, tool] [lib, app, lib] [⟨base, true⟩, ⟨tool, false⟩] ∧
      s.remoteDeps [lib, app, lib] = .ok [⟨base, true⟩, ⟨tool, false⟩] ∧
      s.remoteDeps [app, lib] = s.remoteDeps [lib, app, lib] := by
  let app := Module.edited "app" MemoryBucket.empty.toBucket none true
  let lib := Module.edited "lib" MemoryBucket.empty.toBucket none true
  let base := Module.edited "base" MemoryBucket.empty.toBucket none true
  let tool := Module.edited "tool" MemoryBucket.empty.toBucket none true
  let resolver := Resolver.ofTable [("app", ["lib"]), ("lib", ["base"]), ("base", ["tool"])]
  let g : Graph := ⟨[("app", ["lib"]), ("lib", ["base"]), ("base", ["tool"]), ("tool", [])]⟩
  have edges : addDependencies resolver [app, lib, base, tool]
      ⟨[("app", []), ("lib", []), ("base", []), ("tool", [])]⟩ = .ok g := by
    simp [addDependencies, resolver, Resolver.ofTable, app, lib, base, tool, Module.edited,
      Module.opaqueId, List.lookup_cons, addDependency, Graph.contains, Graph.nodes, Graph.addEdge,
      Graph.addNode, pure, Except.pure, bind, Except.bind, g]
  have acyclic : g.findCycle = none := by
    simp [g, Graph.findCycle, Graph.searchCycle, Graph.nodes, Graph.directDeps]
  have built : build [app, lib, base, tool] resolver = .ok ⟨[app, lib, base, tool], g⟩ :=
    build_eq_ok_iff.mpr ⟨_, rfl, edges, acyclic, rfl⟩
  have ofApp : deps ⟨[app, lib, base, tool], g⟩ app =
      .ok [⟨lib, true⟩, ⟨base, false⟩, ⟨tool, false⟩] := by
    have found : g.transitiveDeps "app" = ["lib", "base", "tool"] := by
      simp [g, Graph.transitiveDeps, Graph.directDeps, Graph.reach]
    rw [deps, show app.opaqueId = "app" from rfl, found]
    rfl
  have ofLib : deps ⟨[app, lib, base, tool], g⟩ lib = .ok [⟨base, true⟩, ⟨tool, false⟩] := by
    have found : g.transitiveDeps "lib" = ["base", "tool"] := by
      simp [g, Graph.transitiveDeps, Graph.directDeps, Graph.reach]
    rw [deps, show lib.opaqueId = "lib" from rfl, found]
    rfl
  have outside : remoteDeps ⟨[app, lib, base, tool], g⟩ [lib, app, lib] =
      .ok [⟨base, true⟩, ⟨tool, false⟩] := by
    have gathered := Outcome.mapM_eq_ok_iff.mpr (.cons ofLib (.cons ofApp (.cons ofLib .nil)))
    have ids : app.opaqueId = "app" ∧ lib.opaqueId = "lib" ∧ base.opaqueId = "base" ∧
      tool.opaqueId = "tool" := ⟨rfl, rfl, rfl, rfl⟩
    have before : Key.Before "base" "tool" ∧ ¬ Key.Before "tool" "base" := by decide
    rw [remoteDeps, gathered]
    simp [ids, before, noteDependency, SortedMap.find?, SortedMap.insert, SortedMap.insertEntry,
      SortedMap.empty, Key.before_irrefl, bind, Except.bind, pure, Except.pure]
  have members : ∀ m ∈ [lib, app, lib], m ∈ [app, lib, base, tool] := by simp
  obtain ⟨listed, found, lists, same⟩ := remoteDeps_spec built members
  obtain rfl := Except.ok.inj (found.symm.trans outside)
  refine ⟨resolver, app, lib, base, tool, _, built, lists, outside, ?_⟩
  rw [outside]
  exact same [app, lib] (by simp [or_comm])

end SchemaModules.ModuleSet
