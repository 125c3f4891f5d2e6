import SchemaModules.Proofs.Graph.Cycle
import SchemaModules.Proofs.Module.Dependencies

/-! # Which modules of a set are published

A local module is selected if it is a target, or if edges lead to it from a local target through
whatever modules (`mem_localContent_iff`). So the selection is closed: a local module that a selected
one depends on is selected as well (`Selects.of_reaches`).
-/

namespace SchemaModules

open Relation (TransGen)

/-- A module as it is added to a set: edited in the workspace, or published in a commit. -/
inductive Module.IsAdded : Module → Prop where
  | edited (bucketId : String) (source : Bucket) (fullName : Option FullName) (isTarget : Bool) :
      IsAdded (edited bucketId source fullName isTarget)
  | published (fullName : FullName) (commitId : CommitId) (source : Bucket)
      (expectedDigest : Option Digest) :
      IsAdded (published fullName commitId source expectedDigest)

/-- A module that is not edited in the workspace has a name and a commit. -/
theorem Module.IsAdded.exists_commit {m : Module} (added : m.IsAdded) (remote : m.isLocal = false) :
    ∃ name id, m.fullName = some name ∧ m.commitId = some id := by
  cases added with
  | edited => cases remote
  | published fullName commitId => exact ⟨fullName, commitId, rfl, rfl⟩

namespace ModuleSet

variable {s : ModuleSet}

/-- A module depends on a module of the set, directly or through others. -/
def Reaches (s : ModuleSet) (m dep : Module) : Prop :=
  dep ∈ s.modules ∧ TransGen s.graph.Edge m.opaqueId dep.opaqueId

/-- A set selects a module to be published: it is local, and it is a target or a local target depends
on it. -/
structure Selects (s : ModuleSet) (m : Module) : Prop where
  member : m ∈ s.modules
  isLocal : m.isLocal = true
  wanted : m.isTarget = true ∨
    ∃ target ∈ s.modules, target.isLocal = true ∧ target.isTarget = true ∧ s.Reaches target m

/-- A local module that a selected one depends on is selected. -/
theorem Selects.of_reaches {m dep : Module} (selected : s.Selects m) (reached : s.Reaches m dep)
    (here : dep.isLocal = true) : s.Selects dep := by
  refine ⟨reached.1, here, .inr ?_⟩
  rcases selected.wanted with own | ⟨target, member, isLocal, isTarget, earlier⟩
  · exact ⟨m, selected.member, selected.isLocal, own, reached⟩
  · exact ⟨target, member, isLocal, isTarget, reached.1, earlier.2.trans reached.2⟩

theorem IsBuilt.findById?_eq (built : s.IsBuilt) {m : Module} (member : m ∈ s.modules) :
    s.findById? m.opaqueId = some m := by
  have found : (s.findById? m.opaqueId).isSome = true :=
    List.find?_isSome.mpr ⟨m, member, by simp⟩
  obtain ⟨other, here⟩ := Option.isSome_iff_exists.mp found
  have same : other.opaqueId = m.opaqueId := by simpa using List.find?_some here
  rw [here, built.eq_of_opaqueId (List.mem_of_find?_eq_some here) member same]

/-- No module of a set that was built depends on itself. -/
theorem IsBuilt.not_reaches_self (built : s.IsBuilt) (m : Module) : ¬ s.Reaches m m := by
  obtain ⟨modules, resolver, made⟩ := built
  obtain ⟨_, -, -, acyclic, -⟩ := build_eq_ok_iff.mp made
  rintro ⟨-, cycle⟩
  exact Graph.acyclic_of_findCycle acyclic _ cycle

/-- The dependencies that are found of a module are the modules that it depends on. -/
theorem mem_deps_iff (built : s.IsBuilt) {m : Module} (member : m ∈ s.modules)
    {deps : List Dependency} (found : s.deps m = .ok deps) (other : Module) :
    (∃ dep ∈ deps, dep.module = other) ↔ s.Reaches m other := by
  obtain ⟨sound, complete⟩ := ids_of_deps found
  constructor
  · rintro ⟨dep, listed, rfl⟩
    obtain ⟨among, reached⟩ := sound dep listed
    exact ⟨among, (Graph.mem_transitiveDeps_iff.mp reached).2⟩
  · intro reached
    have apart : other.opaqueId ≠ m.opaqueId := by
      intro same
      obtain rfl := built.eq_of_opaqueId reached.1 member same
      exact built.not_reaches_self other reached
    obtain ⟨dep, listed, same⟩ :=
      complete other.opaqueId (Graph.mem_transitiveDeps_iff.mpr ⟨apart, reached.2⟩)
    exact ⟨dep, listed, built.eq_of_opaqueId (sound dep listed).1 reached.1 same⟩

/-- What is published of a set that was built are the modules that it selects. -/
theorem mem_localContent_iff (built : s.IsBuilt) {m : Module} :
    m ∈ s.localContent ↔ s.Selects m := by
  constructor
  · intro listed
    have isLocal := built.isLocal_of_mem_localContent listed
    obtain ⟨member, selected⟩ := List.mem_filter.mp listed
    obtain ⟨target, among, reached⟩ := List.mem_flatMap.mp (of_decide_eq_true selected)
    obtain ⟨targetMember, wanted⟩ := List.mem_filter.mp among
    obtain ⟨targetLocal, isTarget⟩ := Bool.and_eq_true_iff.mp wanted
    refine ⟨member, isLocal, ?_⟩
    rcases List.mem_cons.mp reached with same | dependency
    · obtain rfl := built.eq_of_opaqueId member targetMember same
      exact .inl isTarget
    · have path := Graph.mem_transitiveDeps_iff.mp (List.mem_filter.mp dependency).1
      exact .inr ⟨target, targetMember, targetLocal, isTarget, member, path.2⟩
  · intro selected
    have listed : ∀ target ∈ s.modules, target.isLocal = true → target.isTarget = true →
        m.opaqueId ∈ s.localIds target → m ∈ s.localContent := by
      intro target targetMember targetLocal isTarget reached
      refine List.mem_filter.mpr ⟨selected.member, decide_eq_true (List.mem_flatMap.mpr ?_)⟩
      refine ⟨target, List.mem_filter.mpr ⟨targetMember, ?_⟩, reached⟩
      rw [targetLocal, isTarget, Bool.and_self]
    rcases selected.wanted with own | ⟨target, targetMember, targetLocal, isTarget, reached⟩
    · exact listed m selected.member selected.isLocal own List.mem_cons_self
    · refine listed target targetMember targetLocal isTarget (List.mem_cons.mpr ?_)
      by_cases same : m.opaqueId = target.opaqueId
      · exact .inl same
      · refine .inr (List.mem_filter.mpr ⟨Graph.mem_transitiveDeps_iff.mpr ⟨same, reached.2⟩, ?_⟩)
        rw [built.findById?_eq selected.member, Option.any_some, selected.isLocal]

end ModuleSet

end SchemaModules
