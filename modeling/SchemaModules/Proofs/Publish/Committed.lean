import SchemaModules.Proofs.Publish.Request
import SchemaModules.Proofs.Publish.Selection
import SchemaModules.Proofs.Publish.Trace

/-! # What contents need from outside was published

Contents are closed under local dependencies: a local module that one of them depends on is among
them, or it has no name and then nothing is selected. So what they need from outside was published
(`not_isLocal_of_needs`), has a name and a commit, and of the faults that publishing can report about
it only a nil commit id is left (`needs_published`).
-/

namespace SchemaModules

namespace Content

variable {s : ModuleSet} {options : PublishOptions} {contents : List Content}

/-- Some module that contents depend on, and that is not edited in the workspace, was published in
the nil commit. -/
def NeedsNilCommit (s : ModuleSet) (contents : List Content) (m : Module) : Prop :=
  m.isLocal = false ∧ m.commitId = some CommitId.nil ∧
    ∃ content ∈ contents, s.Reaches content.module m

section

variable (built : s.IsBuilt) (selected : select s options = .ok contents)
include built selected

theorem selects_of_mem {m : Module} (member : m ∈ contents.map (·.module)) : s.Selects m := by
  rw [(modules_of_ofModules (ofModules_of_select selected)).1] at member
  exact (ModuleSet.mem_localContent_iff built).mp (List.mem_filter.mp member).1

/-- What contents need from outside is not edited in the workspace. -/
theorem not_isLocal_of_needs {m : Module} (needs : s.Needs (contents.map (·.module)) m) :
    m.isLocal = false := by
  have made := ofModules_of_select selected
  obtain ⟨a, source, path⟩ := needs.reached
  have reached : s.Reaches a m := ⟨needs.member, path⟩
  by_contra edited
  have isLocal : m.isLocal = true := by simpa using edited
  have selects := (selects_of_mem built selected source).of_reaches reached isLocal
  cases name : m.fullName with
  | some fullName =>
      apply needs.outside
      rw [(modules_of_ofModules made).1]
      refine List.mem_filter.mpr ⟨(ModuleSet.mem_localContent_iff built).mpr selects, ?_⟩
      rw [name, Option.isSome_some]
  | none =>
      -- A local module that contents leave unnamed keeps them from being selected.
      rcases select_cases built made with ⟨-, bare⟩ | ⟨_, failed, -⟩
      · exact bare ⟨m, name, a, source, reached⟩
      · rw [selected] at failed
        cases failed

/-- Contents need a module in the nil commit exactly if they depend on one. -/
theorem needsNilCommit_iff {m : Module} : NeedsNilCommit s contents m ↔
    s.Needs (contents.map (·.module)) m ∧ m.commitId = some CommitId.nil := by
  constructor
  · rintro ⟨remote, committed, content, source, reached⟩
    refine ⟨⟨reached.1, ⟨_, List.mem_map_of_mem source, reached.2⟩, fun inside => ?_⟩, committed⟩
    rw [(selects_of_mem built selected inside).isLocal] at remote
    cases remote
  · rintro ⟨needs, committed⟩
    obtain ⟨_, inside, path⟩ := needs.reached
    obtain ⟨content, source, rfl⟩ := List.mem_map.mp inside
    exact ⟨not_isLocal_of_needs built selected needs, committed, content, source, needs.member,
      path⟩

/-- What contents need from outside is found, and all of it was published. -/
theorem exists_remoteDeps (added : ∀ m ∈ s.modules, m.IsAdded) :
    ∃ deps, s.remoteDeps (contents.map (·.module)) = .ok deps ∧ ∀ dep ∈ deps,
      s.Needs (contents.map (·.module)) dep.module ∧ dep.module.isLocal = false ∧
        ∃ name id, dep.module.fullName = some name ∧ dep.module.commitId = some id := by
  obtain ⟨deps, found⟩ := built.wellFormed.remoteDeps_total (contents.map (·.module))
  refine ⟨deps, found, fun dep listed => ?_⟩
  have needs := (ModuleSet.mem_remoteDeps_iff built (mem_modules_of_select selected) found
    dep.module).mp ⟨dep, listed, rfl⟩
  have remote := not_isLocal_of_needs built selected needs
  exact ⟨needs, remote, (added dep.module needs.member).exists_commit remote⟩

/-- Contents have references, unless they need a module in the nil commit; then one such is
reported. -/
theorem dependencyRefs_cases (added : ∀ m ∈ s.modules, m.IsAdded) :
    (∃ refs, dependencyRefs s contents = .ok refs ∧ ∀ m, ¬ NeedsNilCommit s contents m) ∨
      ∃ m name, NeedsNilCommit s contents m ∧ m.fullName = some name ∧
        dependencyRefs s contents = .error (.impossible (.uncommittedDependency name)) := by
  obtain ⟨deps, found, published⟩ := exists_remoteDeps built selected added
  have refs : dependencyRefs s contents =
      (deps.mapM dependencyRef >>= fun refs => pure (SortedMap.sortedSet refs)) := by
    simp only [dependencyRefs, found, bind, Except.bind, Except.mapError]
  cases named : deps.mapM dependencyRef with
  | ok all =>
      refine .inl ⟨_, by rw [refs, named]; rfl, fun m lacks => ?_⟩
      obtain ⟨needs, committed⟩ := (needsNilCommit_iff built selected).mp lacks
      obtain ⟨dep, listed, rfl⟩ := (ModuleSet.mem_remoteDeps_iff built
        (mem_modules_of_select selected) found m).mpr needs
      obtain ⟨ref, -, made⟩ :=
        Outcome.exists_of_forall₂ (Outcome.mapM_eq_ok_iff.mp named).flip listed
      obtain ⟨-, -, name, _, fullName, -⟩ := published dep listed
      simp [dependencyRef, fullName, committed] at made
  | error error =>
      obtain ⟨dep, listed, refused⟩ := Outcome.exists_of_mapM_error named
      obtain ⟨needs, remote, name, id, fullName, committed⟩ := published dep listed
      simp only [dependencyRef, fullName, committed] at refused
      split at refused
      · next unset =>
          obtain rfl := Except.error.inj refused
          refine .inr ⟨dep.module, name, ?_, fullName, by rw [refs, named]; rfl⟩
          exact (needsNilCommit_iff built selected).mpr ⟨needs, by rw [committed, unset]⟩
      · cases refused

end

theorem error_of_labels {modules : List RegistryModule} {error : PublishError}
    (failed : labels modules options = .error error) :
    ∃ found, error = .divergentDefaultLabels found := by
  unfold labels at failed
  split at failed
  · cases failed
  · split at failed
    · cases failed
    · cases failed
    · exact ⟨_, (Except.error.inj failed).symm⟩

end Content

/-! ## Faults of a run -/

namespace Publishing

open MemoryRegistry (client)

variable {s : ModuleSet} {publicRegistry registry : String} {options : PublishOptions}
  {contents : List Content} {fault : PublishFault}

/-- What contents need from outside is all that can be at fault when they are prepared. -/
theorem dependencyRefs_of_fault {modules : List RegistryModule}
    (failed : prepare publicRegistry s options registry contents modules =
      .error (.impossible fault)) :
    Content.dependencyRefs s contents = .error (.impossible fault) := by
  cases labelled : Content.labels modules options with
  | error error =>
      obtain ⟨_, rfl⟩ := Content.error_of_labels labelled
      simp [prepare, labelled, bind, Except.bind] at failed
  | ok labels =>
      cases referred : Content.dependencyRefs s contents with
      | error error => simpa [prepare, labelled, referred, bind, Except.bind] using failed
      | ok refs =>
          rcases prepare_cases labelled referred publicRegistry registry with
            ⟨-, prepared⟩ | ⟨-, ⟨_, prepared, -⟩ | ⟨_, prepared, -⟩⟩
          all_goals
            rw [prepared] at failed
            cases failed

/-- Neither resolving contents nor delivering them ends in a fault. -/
theorem dependencyRefs_of_publish {r : MemoryRegistry}
    (failed : (outcome (publish client publicRegistry s options registry contents) r).1 =
      .error (.impossible fault)) :
    Content.dependencyRefs s contents = .error (.impossible fault) := by
  obtain ⟨_, _, mid, found, resolves, -, -, answered⟩ := @resolve_run registry options contents r
  unfold publish at failed
  cases found with
  | error error =>
      rw [outcome_bind_of_error resolves] at failed
      have kind := answered _ (congrArg Except.error (Except.error.inj failed))
      cases kind
  | ok modules =>
      rw [outcome_bind_of_ok resolves] at failed
      cases prepared : prepare publicRegistry s options registry contents modules with
      | error error =>
          rw [prepared, outcome_error_bind] at failed
          obtain rfl : error = .impossible fault := Except.error.inj failed
          exact dependencyRefs_of_fault prepared
      | ok uploads =>
          rw [prepared, outcome_ok_bind] at failed
          obtain ⟨result, last, run, -, kinds⟩ := deliver_calls registry contents uploads mid
          rw [run] at failed
          have kind := kinds _ failed
          cases kind

end Publishing

namespace ModuleSet

open MemoryRegistry (client)
open Publishing (outcome)

variable {s : ModuleSet} {publicRegistry registry : String} {options : PublishOptions}
  {contents : List Content} {r mid : MemoryRegistry}

/-- A run that ends in a fault comes to what its contents need from outside. -/
theorem WellFormed.dependencyRefs_of_upload (wf : s.WellFormed) {fault : PublishFault}
    (failed : (outcome (s.upload client publicRegistry options) r).1 =
      .error (.impossible fault)) :
    ∃ registry contents, s.Publishes options registry contents ∧
      Content.dependencyRefs s contents = .error (.impossible fault) := by
  rcases s.upload_splits client publicRegistry options with
    ⟨registry, contents, publishes⟩ | ⟨result, same, refused, -⟩
  · rw [publishes.upload_eq] at failed
    exact ⟨registry, contents, publishes, Publishing.dependencyRefs_of_publish failed⟩
  · rw [same, Publishing.outcome_given] at failed
    have refusal := refused wf _ failed
    cases refusal

/-- Publishing contents of a set comes, from a state, past the choice of labels for them. -/
structure Labels (s : ModuleSet) (options : PublishOptions) (registry : String)
    (contents : List Content) (r : MemoryRegistry) : Prop
    extends s.Publishes options registry contents where
  labelled : ∃ modules mid labels,
    outcome (Publishing.resolve client registry contents options) r = (.ok modules, mid) ∧
      Content.labels modules options = .ok labels

/-- Past the choice of labels, what contents need from outside is looked at. -/
theorem Labels.upload_of_error (labels : s.Labels options registry contents r) {error : PublishError}
    (failed : Content.dependencyRefs s contents = .error error) :
    (outcome (s.upload client publicRegistry options) r).1 = .error error := by
  obtain ⟨modules, mid, chosen, resolved, labelled⟩ := labels.labelled
  have prepared : Publishing.prepare publicRegistry s options registry contents modules =
      .error error := by
    simp only [Publishing.prepare, labelled, failed, bind, Except.bind]
  rw [labels.upload_eq, Publishing.publish, Publishing.outcome_bind_of_ok resolved, prepared,
    Publishing.outcome_error_bind]

/-- All that contents of a set need from outside was published, with a name and a commit. So no run
ends in the fault that it has no name, and one that comes past the choice of labels ends in the fault
that it has no commit exactly if contents depend on a module that was published in the nil commit;
the fault names such a module. -/
theorem needs_published (built : s.IsBuilt) (added : ∀ m ∈ s.modules, m.IsAdded)
    (publicRegistry : String) (options : PublishOptions) :
    (∀ contents, Content.select s options = .ok contents →
        ∃ deps, s.remoteDeps (contents.map (·.module)) = .ok deps ∧ ∀ dep ∈ deps,
          dep.module.isLocal = false ∧ dep.module.fullName.isSome = true ∧
            dep.module.commitId.isSome = true) ∧
      (∀ (r : MemoryRegistry) description,
        (outcome (s.upload client publicRegistry options) r).1 ≠
          .error (.impossible (.unnamedDependency description))) ∧
      ∀ registry contents r, s.Labels options registry contents r →
        ((∃ name, (outcome (s.upload client publicRegistry options) r).1 =
            .error (.impossible (.uncommittedDependency name))) ↔
          ∃ m, Content.NeedsNilCommit s contents m) ∧
        ∀ name, (outcome (s.upload client publicRegistry options) r).1 =
            .error (.impossible (.uncommittedDependency name)) →
          ∃ m, Content.NeedsNilCommit s contents m ∧ m.fullName = some name := by
  refine ⟨?_, ?_, ?_⟩
  · intro contents selected
    obtain ⟨deps, found, published⟩ := Content.exists_remoteDeps built selected added
    refine ⟨deps, found, fun dep listed => ?_⟩
    obtain ⟨-, remote, name, id, named, committed⟩ := published dep listed
    rw [named, committed]
    exact ⟨remote, rfl, rfl⟩
  · intro r description failed
    obtain ⟨registry, contents, publishes, referred⟩ :=
      built.wellFormed.dependencyRefs_of_upload failed
    rcases Content.dependencyRefs_cases built publishes.selected added with
      ⟨refs, fine, -⟩ | ⟨_, _, -, -, fault⟩
    · rw [fine] at referred
      cases referred
    · rw [fault] at referred
      cases referred
  · intro registry contents r labels
    have named : ∀ name, (outcome (s.upload client publicRegistry options) r).1 =
        .error (.impossible (.uncommittedDependency name)) →
        ∃ m, Content.NeedsNilCommit s contents m ∧ m.fullName = some name := by
      intro name failed
      rw [labels.upload_eq] at failed
      have referred := Publishing.dependencyRefs_of_publish failed
      rcases Content.dependencyRefs_cases built labels.selected added with
        ⟨refs, fine, -⟩ | ⟨m, other, lacks, fullName, fault⟩
      · rw [fine] at referred
        cases referred
      · rw [fault] at referred
        cases referred
        exact ⟨m, lacks, fullName⟩
    refine ⟨⟨?_, ?_⟩, named⟩
    · rintro ⟨name, failed⟩
      obtain ⟨m, lacks, -⟩ := named name failed
      exact ⟨m, lacks⟩
    · rintro ⟨m, lacks⟩
      rcases Content.dependencyRefs_cases built labels.selected added with
        ⟨_, -, free⟩ | ⟨_, name, -, -, fault⟩
      · exact absurd lacks (free m)
      · exact ⟨name, labels.upload_of_error fault⟩

/-- A module that depends on one that was published in the nil commit is not sent, for want of a
commit to name. -/
theorem needs_published_of_nil_commit : ∃ (s : ModuleSet) (options : PublishOptions)
    (contents : List Content) (name : FullName), s.IsBuilt ∧ (∀ m ∈ s.modules, m.IsAdded) ∧
      Content.select s options = .ok contents ∧
      s.Labels options "r.dev" contents .empty ∧
      (∃ m, Content.NeedsNilCommit s contents m) ∧
      (outcome (s.upload client "buf.build" options) .empty).1 =
        .error (.impossible (.uncommittedDependency name)) ∧
      ∃ m, Content.NeedsNilCommit s contents m ∧ m.fullName = some name := by
  let name : FullName := ⟨"r.dev", "acme", "a", by decide, by decide, by decide⟩
  let depName : FullName := ⟨"q.dev", "acme", "b", by decide, by decide, by decide⟩
  let m := Module.edited "proto" MemoryBucket.empty.toBucket (some name) true
  let dep := Module.published depName CommitId.nil MemoryBucket.empty.toBucket none
  let options : PublishOptions := { createMissing := true }
  let created := Store.empty.addModule "r.dev" ⟨name.ref, .isPrivate, "main"⟩
  let mid : MemoryRegistry := ⟨created.2, none, [], [.createModules "r.dev" [⟨"acme", "a"⟩]]⟩
  have apart : m.opaqueId ≠ dep.opaqueId := by decide
  have built := isBuilt_pair apart
  have added : ∀ other ∈ (pair m dep).modules, other.IsAdded := by
    simp only [pair, List.forall_mem_cons]
    exact ⟨.edited .., .published .., fun _ none => absurd none List.not_mem_nil⟩
  have labels : (pair m dep).Labels options "r.dev" [⟨m, name⟩] .empty := {
    publishes_pair apart (rfl : m.fullName = some name) rfl rfl
      (rfl : dep.fullName = some depName) rfl PublishOptions.check_createMissing with
    labelled := ⟨[created.1], mid, [], rfl, rfl⟩ }
  have lacks : Content.NeedsNilCommit (pair m dep) [⟨m, name⟩] dep := by
    refine ⟨rfl, rfl, _, List.mem_cons_self, List.mem_cons_of_mem _ List.mem_cons_self, .single ?_⟩
    simp [Graph.Edge, Graph.directDeps, pair]
  obtain ⟨-, -, runs⟩ := needs_published built added "buf.build" options
  obtain ⟨fault, names⟩ := runs "r.dev" _ .empty labels
  obtain ⟨reported, failed⟩ := fault.mpr ⟨dep, lacks⟩
  exact ⟨pair m dep, options, [⟨m, name⟩], reported, built, added, labels.selected, labels,
    ⟨dep, lacks⟩, failed, names reported failed⟩

end ModuleSet

end SchemaModules
