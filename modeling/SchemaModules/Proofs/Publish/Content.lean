import SchemaModules.Proofs.Module.Set
import SchemaModules.Proofs.Publish.Outcome
import SchemaModules.Proofs.Publish.Reconciliation
import SchemaModules.Proofs.SortedMap

/-! # What is published, and what can fail about it

Contents are the named ones of the local modules, in the order of their set, and all on one
registry. Each step of publishing fails with errors of one class: refusals, errors that keep an
upload from being sent, or what is found in an answer.
-/

namespace SchemaModules.Content

variable {s : ModuleSet} {options : PublishOptions} {contents : List Content} {error : PublishError}

/-! ## Which contents, and on which registry -/

/-- Contents are the named modules of a list in its order, each under its own name. -/
theorem modules_of_ofModules {excludeUnnamed : Bool} {modules : List Module}
    (made : ofModules excludeUnnamed modules = .ok contents) :
    contents.map (·.module) = modules.filter (·.fullName.isSome) ∧
      ∀ content ∈ contents, content.module.fullName = some content.fullName := by
  induction modules generalizing contents with
  | nil =>
      obtain rfl := Except.ok.inj made
      exact ⟨rfl, fun _ member => absurd member List.not_mem_nil⟩
  | cons m rest ih =>
      unfold ofModules at made
      cases named : m.fullName with
      | some name =>
          simp only [named] at made
          obtain ⟨later, found, equal⟩ := Outcome.bind_eq_ok_iff.mp made
          obtain rfl := Outcome.pure_eq_ok_iff.mp equal
          obtain ⟨modules, names⟩ := ih found
          refine ⟨?_, List.forall_mem_cons.mpr ⟨named, names⟩⟩
          rw [List.map_cons, modules, List.filter_cons_of_pos (by rw [named]; rfl)]
      | none =>
          simp only [named] at made
          rw [List.filter_cons_of_neg (by simp [named])]
          split at made
          · exact ih made
          · cases made

theorem ofModules_of_select (selected : select s options = .ok contents) :
    ofModules options.excludeUnnamed s.localContent = .ok contents := by
  obtain ⟨found, made, remaining⟩ := Outcome.bind_eq_ok_iff.mp selected
  obtain ⟨unnamed, -, guarded⟩ := Outcome.bind_eq_ok_iff.mp remaining
  obtain ⟨-, equal⟩ := Outcome.guard_eq_ok_iff.mp guarded
  obtain rfl := Outcome.pure_eq_ok_iff.mp equal
  exact made

/-- There is a primary registry exactly if there are contents and all are on one registry. -/
theorem primaryRegistry_eq_ok_iff {registry : String} :
    primaryRegistry contents = .ok registry ↔
      contents ≠ [] ∧ ∀ content ∈ contents, content.fullName.registry = registry := by
  have shared : SortedMap.sortedSet (contents.map (·.fullName.registry)) = [registry] ↔
      contents ≠ [] ∧ ∀ content ∈ contents, content.fullName.registry = registry := by
    rw [SortedMap.sortedSet_eq_singleton_iff, List.forall_mem_map, ne_eq, List.map_eq_nil_iff]
  rw [← shared, primaryRegistry]
  split
  · next only sorted => rw [sorted, List.singleton_inj, Except.ok.injEq]
  · next several => simpa using several registry

theorem registry_of_primaryRegistry {registry : String}
    (primary : primaryRegistry contents = .ok registry) :
    ∀ content ∈ contents, content.fullName.registry = registry :=
  (primaryRegistry_eq_ok_iff.mp primary).2

theorem refs_of_toUpload {labels : List String} {uploads : List UploadContent}
    (made : contents.mapM (toUpload labels options) = .ok uploads) :
    uploads.map (·.ref) = contents.map (·.fullName.ref) := by
  have each := Outcome.mapM_eq_ok_iff.mp made
  clear made
  induction each with
  | nil => rfl
  | cons first _ ih =>
      obtain ⟨files, -, equal⟩ := Outcome.bind_eq_ok_iff.mp first
      obtain rfl := Outcome.pure_eq_ok_iff.mp equal
      rw [List.map_cons, ih]
      rfl

/-! ## The errors of each step -/

theorem isRefusal_of_ofModules {excludeUnnamed : Bool} {modules : List Module}
    (failed : ofModules excludeUnnamed modules = .error error) : error.isRefusal = true := by
  induction modules with
  | nil => simp [ofModules] at failed
  | cons m rest ih =>
      unfold ofModules at failed
      cases named : m.fullName with
      | some name =>
          simp only [named] at failed
          rcases Outcome.bind_eq_error_iff.mp failed with later | ⟨_, -, impossible⟩
          · exact ih later
          · simp [pure, Except.pure] at impossible
      | none =>
          simp only [named] at failed
          split at failed
          · exact ih failed
          · obtain rfl := Except.error.inj failed
            rfl

theorem unnamedDependencies_total (wf : s.WellFormed) (contents : List Content) :
    ∃ unnamed, unnamedDependencies s contents = .ok unnamed := by
  obtain ⟨deps, found⟩ := @Outcome.mapM_total _ _ _ (fun content : Content => s.deps content.module)
    contents fun content _ => wf.deps_total content.module
  exact ⟨_, Outcome.bind_eq_ok_iff.mpr ⟨deps, found, rfl⟩⟩

/-- Contents of a set that was built are refused only for lack of names. -/
theorem isRefusal_of_select (wf : s.WellFormed) (failed : select s options = .error error) :
    error.isRefusal = true := by
  rcases Outcome.bind_eq_error_iff.mp failed with early | ⟨contents, -, remaining⟩
  · exact isRefusal_of_ofModules early
  · obtain ⟨unnamed, found⟩ := unnamedDependencies_total wf contents
    rw [found] at remaining
    rcases Outcome.bind_eq_error_iff.mp remaining with missing | ⟨names, -, guarded⟩
    · simp [Except.mapError] at missing
    · split at guarded
      · obtain rfl := Except.error.inj guarded
        rfl
      · simp [pure, Except.pure] at guarded

theorem isRefusal_of_primaryRegistry (failed : primaryRegistry contents = .error error) :
    error.isRefusal = true := by
  unfold primaryRegistry at failed
  split at failed
  · simp at failed
  · obtain rfl := Except.error.inj failed
    rfl

theorem isUnsent_of_labels {modules : List RegistryModule}
    (failed : labels modules options = .error error) : error.isUnsent = true := by
  unfold labels at failed
  split at failed
  · simp at failed
  · split at failed
    · simp at failed
    · simp at failed
    · obtain rfl := Except.error.inj failed
      rfl

theorem isUnsent_of_dependencyRefs (failed : dependencyRefs s contents = .error error) :
    error.isUnsent = true := by
  rcases Outcome.bind_eq_error_iff.mp failed with missing | ⟨deps, -, remaining⟩
  · obtain ⟨fault, -, rfl⟩ := Outcome.mapError_eq_error_iff.mp missing
    rfl
  · rcases Outcome.bind_eq_error_iff.mp remaining with unusable | ⟨_, -, impossible⟩
    · obtain ⟨dep, -, refused⟩ := Outcome.exists_of_mapM_error unusable
      unfold dependencyRef at refused
      split at refused
      · obtain rfl := Except.error.inj refused
        rfl
      · obtain rfl := Except.error.inj refused
        rfl
      · split at refused
        · obtain rfl := Except.error.inj refused
          rfl
        · simp at refused
    · simp [pure, Except.pure] at impossible

theorem isUnsent_of_checkFederation {publicRegistry primary : String} {deps : List DependencyRef}
    (failed : checkFederation publicRegistry primary deps = .error error) :
    error.isUnsent = true := by
  unfold checkFederation at failed
  split at failed
  · obtain rfl := Except.error.inj failed
    rfl
  · simp at failed

theorem isUnsent_of_toUpload {labels : List String}
    (failed : contents.mapM (toUpload labels options) = .error error) : error.isUnsent = true := by
  obtain ⟨content, -, refused⟩ := Outcome.exists_of_mapM_error failed
  rcases Outcome.bind_eq_error_iff.mp refused with unread | ⟨_, -, impossible⟩
  · obtain ⟨fault, -, rfl⟩ := Outcome.mapError_eq_error_iff.mp unread
    rfl
  · simp [pure, Except.pure] at impossible

/-- What commits lack is found in the answer: their ids are checked before their keys are made. -/
theorem isAnswered_of_reconcile {returned : List UploadedCommit}
    (failed : reconcile contents returned = .error error) : error.isAnswered = true := by
  by_cases counted : returned.length = contents.length
  · obtain ⟨⟨fault, rfl⟩, -⟩ := exists_unusable_of_reconcile counted failed
    rfl
  · obtain rfl := Except.error.inj ((reconcile_of_miscounted counted).symm.trans failed)
    rfl

/-! ## A content with a dependency -/

section Pair

variable {m dep : Module} {name depName : FullName} (apart : m.opaqueId ≠ dep.opaqueId)
  (depNamed : dep.fullName = some depName)
include apart depNamed

theorem select_pair (named : m.fullName = some name) (here : m.isLocal = true)
    (target : m.isTarget = true) (remote : dep.isLocal = false) (options : PublishOptions) :
    select (.pair m dep) options = .ok [⟨m, name⟩] := by
  have made : ofModules options.excludeUnnamed [m] = .ok [⟨m, name⟩] := by
    simp only [ofModules, named]
    rfl
  have bare : unnamedDependencies (.pair m dep) [⟨m, name⟩] = .ok [] := by
    have all : [(⟨dep, true⟩ : Dependency)].filter (fun found => found.module.fullName.isNone) =
        [] := List.filter_eq_nil_iff.mpr (by simp [depNamed])
    unfold unnamedDependencies
    rw [List.mapM_cons, ModuleSet.deps_pair apart]
    change Except.ok (SortedMap.sortedSet (([(⟨dep, true⟩ : Dependency)].filter fun found =>
      found.module.fullName.isNone).map (·.module.description))) = _
    rw [all]
    rfl
  unfold select
  rw [ModuleSet.localContent_pair apart here target remote, made]
  exact Outcome.bind_eq_ok_iff.mpr ⟨_, rfl, Outcome.bind_eq_ok_iff.mpr ⟨[], by rw [bare]; rfl, rfl⟩⟩

theorem dependencyRefs_pair {id : CommitId} (committed : dep.commitId = some id)
    (set : id ≠ CommitId.nil) :
    dependencyRefs (.pair m dep) [⟨m, name⟩] = .ok [⟨id.text, depName.registry⟩] := by
  have referred : dependencyRef ⟨dep, true⟩ = .ok ⟨id.text, depName.registry⟩ := by
    simp [dependencyRef, depNamed, committed, set]
  unfold dependencyRefs
  rw [List.map_cons, List.map_nil, ModuleSet.remoteDeps_pair apart]
  refine Outcome.bind_eq_ok_iff.mpr ⟨_, rfl, ?_⟩
  rw [List.mapM_cons, referred]
  rfl

theorem select_pair_both (named : m.fullName = some name) (here : m.isLocal = true)
    (target : m.isTarget = true) (depHere : dep.isLocal = true) (other : dep.isTarget = false)
    (options : PublishOptions) :
    select (.pair m dep) options = .ok [⟨m, name⟩, ⟨dep, depName⟩] := by
  have made : ofModules options.excludeUnnamed [m, dep] = .ok [⟨m, name⟩, ⟨dep, depName⟩] := by
    simp only [ofModules, named, depNamed]
    rfl
  have bare : unnamedDependencies (.pair m dep) [⟨m, name⟩, ⟨dep, depName⟩] = .ok [] := by
    have all : [(⟨dep, true⟩ : Dependency)].filter (fun found => found.module.fullName.isNone) =
        [] := List.filter_eq_nil_iff.mpr (by simp [depNamed])
    unfold unnamedDependencies
    rw [List.mapM_cons, ModuleSet.deps_pair apart, List.mapM_cons, ModuleSet.deps_pair_snd apart]
    change Except.ok (SortedMap.sortedSet (([(⟨dep, true⟩ : Dependency)].filter fun found =>
      found.module.fullName.isNone).map (·.module.description))) = _
    rw [all]
    rfl
  unfold select
  rw [ModuleSet.localContent_pair_both apart here target depHere other, made]
  exact Outcome.bind_eq_ok_iff.mpr ⟨_, rfl, Outcome.bind_eq_ok_iff.mpr ⟨[], by rw [bare]; rfl, rfl⟩⟩

omit depNamed in
theorem dependencyRefs_pair_both :
    dependencyRefs (.pair m dep) [⟨m, name⟩, ⟨dep, depName⟩] = .ok [] := by
  unfold dependencyRefs
  rw [List.map_cons, List.map_cons, List.map_nil, ModuleSet.remoteDeps_pair_both apart]
  rfl

end Pair

end SchemaModules.Content
