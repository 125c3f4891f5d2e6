import SchemaModules.Proofs.Module.Building
import SchemaModules.Proofs.Module.Selection

/-! # The order in which modules are given

A resolver that does not look at the other modules leads to the same set in whatever order these are
given: it accepts them or not (`Accepted.perm`), and two sets of the same modules with the same edges
answer alike (`Alike`). Only the modules themselves and what is selected of them keep the order of
their set.
-/

namespace SchemaModules.ModuleSet

open Relation (TransGen)

variable {resolver : Resolver} {modules others : List Module} {s t : ModuleSet}

/-! ## Building -/

theorem dependsOn_perm (blind : ∀ m, resolver m modules = resolver m others)
    (perm : modules.Perm others) :
    DependsOn resolver modules = DependsOn resolver others := by
  funext a b
  simp only [DependsOn, blind, perm.mem_iff]

theorem Accepted.perm (accepted : Accepted resolver modules)
    (blind : ∀ m, resolver m modules = resolver m others) (perm : modules.Perm others) :
    Accepted resolver others where
  distinct := (perm.map _).nodup_iff.mp accepted.distinct
  resolved := by
    intro m member
    obtain ⟨named, found, known⟩ := accepted.resolved m (perm.mem_iff.mpr member)
    exact ⟨named, (blind m).symm.trans found, fun dep among =>
      (perm.map _).mem_iff.mp (known dep among)⟩
  acyclic := by
    rw [← dependsOn_perm blind perm]
    exact accepted.acyclic

theorem Accepted.exists_build (accepted : Accepted resolver modules) :
    ∃ s, build modules resolver = .ok s := by
  cases result : build modules resolver with
  | ok s => exact ⟨s, rfl⟩
  | error e => exact absurd (refused_of_build result) accepted.not_refused

/-- Whether modules make a set does not depend on their order. -/
theorem exists_build_perm (blind : ∀ m, resolver m modules = resolver m others)
    (perm : modules.Perm others) (built : ∃ s, build modules resolver = .ok s) :
    ∃ t, build others resolver = .ok t := by
  obtain ⟨s, made⟩ := built
  exact ((accepted_of_build made).perm blind perm).exists_build

/-! ## Sets of the same modules -/

/-- Two sets that were built have the same modules, if in another order, and the same edges, those of
each module in the same order. -/
structure Alike (s t : ModuleSet) : Prop where
  built : s.IsBuilt
  builtToo : t.IsBuilt
  modules : s.modules.Perm t.modules
  directDeps : ∀ id, s.graph.directDeps id = t.graph.directDeps id

theorem alike_of_build (blind : ∀ m, resolver m modules = resolver m others)
    (perm : modules.Perm others) (first : build modules resolver = .ok s)
    (second : build others resolver = .ok t) : Alike s t where
  built := ⟨modules, resolver, first⟩
  builtToo := ⟨others, resolver, second⟩
  modules := by
    rw [(carries_of_build first).1, (carries_of_build second).1]
    exact perm
  directDeps id := by
    obtain ⟨-, -, carries, -⟩ := carries_of_build first
    obtain ⟨-, -, carriesToo, -⟩ := carries_of_build second
    by_cases known : id ∈ modules.map (·.opaqueId)
    · obtain ⟨m, member, rfl⟩ := List.mem_map.mp known
      obtain ⟨named, found, -, deps⟩ := carries.named m member
      obtain ⟨again, foundToo, -, depsToo⟩ := carriesToo.named m (perm.mem_iff.mp member)
      obtain rfl := Except.ok.inj (found.symm.trans ((blind m).trans foundToo))
      rw [deps, depsToo]
    · rw [carries.others id known]
      rw [(perm.map _).mem_iff] at known
      rw [carriesToo.others id known]

theorem IsBuilt.findById?_eq_some_iff (built : s.IsBuilt) {id : String} {m : Module} :
    s.findById? id = some m ↔ m ∈ s.modules ∧ m.opaqueId = id := by
  constructor
  · intro found
    have same := List.find?_some found
    exact ⟨List.mem_of_find?_eq_some found, of_decide_eq_true same⟩
  · rintro ⟨member, rfl⟩
    exact built.findById?_eq member

namespace Alike

theorem findById?_eq (alike : Alike s t) (id : String) : s.findById? id = t.findById? id := by
  apply Option.ext
  intro m
  rw [alike.built.findById?_eq_some_iff, alike.builtToo.findById?_eq_some_iff,
    alike.modules.mem_iff]

theorem deps_eq (alike : Alike s t) : s.deps = t.deps := by
  funext m
  simp only [deps, member, alike.findById?_eq, alike.directDeps,
    Graph.transitiveDeps_congr alike.directDeps]

theorem remoteDeps_eq (alike : Alike s t) : s.remoteDeps = t.remoteDeps := by
  funext group
  unfold remoteDeps
  rw [alike.deps_eq]

theorem registries_eq (alike : Alike s t) : s.registries = t.registries := by
  apply SortedMap.eq_of_mem_iff (SortedMap.sortedSet_ascending _) (SortedMap.sortedSet_ascending _)
  intro registry
  rw [SortedMap.mem_sortedSet, SortedMap.mem_sortedSet]
  exact ((alike.modules.filterMap _).map _).mem_iff

theorem edge_eq (alike : Alike s t) : s.graph.Edge = t.graph.Edge := by
  funext a b
  rw [Graph.Edge, Graph.Edge, alike.directDeps]

theorem selects_iff (alike : Alike s t) {m : Module} : s.Selects m ↔ t.Selects m := by
  have reaches : ∀ target, s.Reaches target m ↔ t.Reaches target m := by
    intro target
    rw [Reaches, Reaches, alike.edge_eq, alike.modules.mem_iff]
  constructor
  · rintro ⟨member, here, wanted⟩
    refine ⟨alike.modules.mem_iff.mp member, here, ?_⟩
    simpa only [reaches, alike.modules.mem_iff] using wanted
  · rintro ⟨member, here, wanted⟩
    refine ⟨alike.modules.mem_iff.mpr member, here, ?_⟩
    simpa only [reaches, alike.modules.mem_iff] using wanted

theorem localContent_perm (alike : Alike s t) : s.localContent.Perm t.localContent := by
  have nodup : ∀ {u : ModuleSet}, u.IsBuilt → u.localContent.Nodup :=
    fun built => built.nodup.of_map.filter _
  rw [List.perm_ext_iff_of_nodup (nodup alike.built) (nodup alike.builtToo)]
  intro m
  rw [mem_localContent_iff alike.built, mem_localContent_iff alike.builtToo]
  exact alike.selects_iff

end Alike

/-! ## The order of a group -/

theorem find?_noteDependency (noted : SortedMap String Dependency) (dep : Dependency)
    (id : String) :
    (noteDependency noted dep).find? id =
      if id = dep.module.opaqueId then
        some ((noted.find? dep.module.opaqueId).elim dep fun known =>
          { known with isDirect := known.isDirect || dep.isDirect })
      else noted.find? id := by
  unfold noteDependency
  rw [SortedMap.find?_insert]
  cases noted.find? dep.module.opaqueId <;> rfl

/-- Two dependencies come to the same noted in either order, if they are of one module where they are
of one id. -/
theorem noteDependency_comm (noted : SortedMap String Dependency) {a b : Dependency}
    (same : a.module.opaqueId = b.module.opaqueId → a.module = b.module) :
    noteDependency (noteDependency noted a) b = noteDependency (noteDependency noted b) a := by
  apply SortedMap.eq_of_find?_eq
  intro id
  simp only [find?_noteDependency]
  by_cases equal : a.module.opaqueId = b.module.opaqueId
  · obtain ⟨m, direct⟩ := a
    obtain ⟨n, directToo⟩ := b
    obtain rfl : m = n := same equal
    by_cases here : id = m.opaqueId
    · simp only [here, if_true]
      cases noted.find? m.opaqueId with
      | none => simp [Bool.or_comm]
      | some known => simp [Bool.or_assoc, Bool.or_comm direct]
    · simp only [if_neg here]
  · rw [if_neg equal, if_neg (Ne.symm equal)]
    by_cases here : id = a.module.opaqueId
    · subst here
      simp [equal]
    · simp [here]

/-- What a group needs from outside does not depend on its order. -/
theorem remoteDeps_perm (built : s.IsBuilt) {group other : List Module}
    (perm : group.Perm other) :
    ∃ deps, s.remoteDeps group = .ok deps ∧ s.remoteDeps other = .ok deps := by
  choose found each using built.wellFormed.deps_total
  have unfolded : ∀ group : List Module, s.remoteDeps group =
      .ok (((group.flatMap found).filter fun dep =>
        dep.module.opaqueId ∉ group.map (·.opaqueId)).foldl noteDependency
          SortedMap.empty |>.entries.map Prod.snd) := by
    intro group
    unfold remoteDeps
    rw [Outcome.mapM_eq_map found group each]
    rfl
  refine ⟨_, unfolded group, (unfolded other).trans ?_⟩
  have passes : ∀ dep : Dependency, dep.module.opaqueId ∉ other.map (·.opaqueId) ↔
      dep.module.opaqueId ∉ group.map (·.opaqueId) := by
    intro dep
    rw [(perm.map _).mem_iff]
  simp only [passes]
  have outside := (perm.symm.flatMap_right found).filter fun dep =>
    decide (dep.module.opaqueId ∉ group.map (·.opaqueId))
  rw [outside.foldl_eq' ?_]
  have inside : ∀ dep ∈ other.flatMap found, dep.module ∈ s.modules := by
    intro dep listed
    obtain ⟨m, -, among⟩ := List.mem_flatMap.mp listed
    exact ((ids_of_deps (each m)).1 dep among).1
  intro a first b second noted
  apply noteDependency_comm
  exact built.eq_of_opaqueId (inside a (List.mem_filter.mp first).1)
    (inside b (List.mem_filter.mp second).1)

/-! ## Sets out of a table -/

/-- Whether modules make a set with the dependencies of a table, and what it answers, does not depend
on the order in which they are given. What is selected keeps the order of each set. -/
theorem build_perm (perm : modules.Perm others) (table : List (String × List String)) :
    ((∃ s, build modules (Resolver.ofTable table) = .ok s) ↔
      ∃ t, build others (Resolver.ofTable table) = .ok t) ∧
    ∀ s t, build modules (Resolver.ofTable table) = .ok s →
      build others (Resolver.ofTable table) = .ok t →
      (∀ m, ∃ deps, s.deps m = .ok deps ∧ t.deps m = .ok deps) ∧
      (∀ group other, group.Perm other →
        ∃ deps, s.remoteDeps group = .ok deps ∧ t.remoteDeps other = .ok deps) ∧
      s.registries = t.registries ∧
      s.localContent.Perm t.localContent ∧
        s.localContent.Sublist modules ∧ t.localContent.Sublist others := by
  have blind : ∀ m, Resolver.ofTable table m modules = Resolver.ofTable table m others :=
    fun _ => rfl
  refine ⟨⟨exists_build_perm blind perm, exists_build_perm (fun _ => rfl) perm.symm⟩, ?_⟩
  intro s t first second
  have alike := alike_of_build blind perm first second
  refine ⟨?_, ?_, alike.registries_eq, alike.localContent_perm, ?_, ?_⟩
  · intro m
    obtain ⟨deps, found⟩ := alike.built.wellFormed.deps_total m
    exact ⟨deps, found, alike.deps_eq ▸ found⟩
  · intro group other reordered
    obtain ⟨deps, found, foundToo⟩ := remoteDeps_perm alike.built reordered
    exact ⟨deps, found, alike.remoteDeps_eq ▸ foundToo⟩
  · rw [← (carries_of_build first).1]
    exact List.filter_sublist
  · rw [← (carries_of_build second).1]
    exact List.filter_sublist

/-- Three modules that depend on each other in a row make a set in either order, with the same
dependencies of the first. -/
theorem build_perm_of_three_in_a_row : ∃ (table : List (String × List String))
    (app lib base : Module) (s t : ModuleSet),
    build [app, lib, base] (Resolver.ofTable table) = .ok s ∧
      build [base, lib, app] (Resolver.ofTable table) = .ok t ∧
      t.deps app = .ok [⟨lib, true⟩, ⟨base, false⟩] ∧
      s.remoteDeps [app, lib] = t.remoteDeps [lib, app] ∧
      s.localContent.Perm t.localContent ∧ t.localContent.Sublist [base, lib, app] := by
  let app := Module.edited "app" MemoryBucket.empty.toBucket none true
  let lib := Module.edited "lib" MemoryBucket.empty.toBucket none true
  let base := Module.edited "base" MemoryBucket.empty.toBucket none true
  let table := [("app", ["lib"]), ("lib", ["base"])]
  let g : Graph := ⟨[("app", ["lib"]), ("lib", ["base"]), ("base", [])]⟩
  have edges : addDependencies (Resolver.ofTable table) [app, lib, base]
      ⟨[("app", []), ("lib", []), ("base", [])]⟩ = .ok g := by
    simp [addDependencies, table, Resolver.ofTable, app, lib, base, Module.edited,
      Module.opaqueId, List.lookup_cons, addDependency, Graph.contains, Graph.nodes, Graph.addEdge,
      Graph.addNode, pure, Except.pure, bind, Except.bind, g]
  have acyclic : g.findCycle = none := by
    simp [g, Graph.findCycle, Graph.searchCycle, Graph.nodes, Graph.directDeps]
  have built : build [app, lib, base] (Resolver.ofTable table) = .ok ⟨[app, lib, base], g⟩ :=
    build_eq_ok_iff.mpr ⟨_, rfl, edges, acyclic, rfl⟩
  have row : deps ⟨[app, lib, base], g⟩ app = .ok [⟨lib, true⟩, ⟨base, false⟩] := by
    have found : g.transitiveDeps "app" = ["lib", "base"] := by
      simp [g, Graph.transitiveDeps, Graph.directDeps, Graph.reach]
    rw [deps, show app.opaqueId = "app" from rfl, found]
    rfl
  have reversed : [app, lib, base].Perm [base, lib, app] := (List.reverse_perm _).symm
  obtain ⟨both, alike⟩ := build_perm reversed table
  obtain ⟨t, builtToo⟩ := both.mp ⟨_, built⟩
  obtain ⟨same, needed, -, selected, -, ordered⟩ := alike _ t built builtToo
  obtain ⟨listed, found, foundToo⟩ := same app
  obtain ⟨outside, remote, remoteToo⟩ := needed [app, lib] [lib, app] (.swap ..)
  obtain rfl := Except.ok.inj (found.symm.trans row)
  exact ⟨table, app, lib, base, _, t, built, builtToo, foundToo, remote.trans remoteToo.symm,
    selected, ordered⟩

end SchemaModules.ModuleSet
