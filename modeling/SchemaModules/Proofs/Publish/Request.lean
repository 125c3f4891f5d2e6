import SchemaModules.Bucket.Memory
import SchemaModules.Proofs.Module.Dependencies
import SchemaModules.Proofs.Publish.Delivery

/-! # How contents are sent

The request that uploads contents names all modules that they need from outside
(`mem_dependencyRefs_iff`). Bare commit ids are sent if these are on the registry of the contents;
if some are elsewhere, their registries are sent as well, unless they may not be depended on.
-/

namespace SchemaModules

open Relation (TransGen)
open Key (Before)

/-- A reference names a module by its commit and its registry. -/
def DependencyRef.Names (ref : DependencyRef) (m : Module) : Prop :=
  ∃ name id, m.fullName = some name ∧ m.commitId = some id ∧ ref = ⟨id.text, name.registry⟩

theorem DependencyRef.Names.unique {ref other : DependencyRef} {m : Module} (first : ref.Names m)
    (second : other.Names m) : ref = other := by
  obtain ⟨name, id, named, committed, rfl⟩ := first
  obtain ⟨_, _, again, likewise, rfl⟩ := second
  rw [named] at again
  rw [committed] at likewise
  cases again
  cases likewise
  rfl

namespace Content

variable {s : ModuleSet} {options : PublishOptions} {contents : List Content}

/-- A reference names a module that contents need from outside. -/
def Depends (s : ModuleSet) (contents : List Content) (ref : DependencyRef) : Prop :=
  ∃ m, s.Needs (contents.map (·.module)) m ∧ ref.Names m

/-- The modules of selected contents are of the set. -/
theorem mem_modules_of_select (selected : select s options = .ok contents) :
    ∀ m ∈ contents.map (·.module), m ∈ s.modules := by
  rw [(modules_of_ofModules (ofModules_of_select selected)).1]
  intro m member
  exact (List.mem_filter.mp (List.mem_filter.mp member).1).1

theorem names_of_dependencyRef {dep : Dependency} {ref : DependencyRef}
    (referred : dependencyRef dep = .ok ref) : ref.Names dep.module := by
  unfold dependencyRef at referred
  split at referred
  · cases referred
  · cases referred
  · next name id named committed =>
      split at referred
      · cases referred
      · exact ⟨name, id, named, committed, (Except.ok.inj referred).symm⟩

/-- The references of contents are those of all modules that they need from outside, each of which
has one. They ascend. -/
theorem mem_dependencyRefs_iff (built : s.IsBuilt) (selected : select s options = .ok contents)
    {refs : List DependencyRef} (referred : dependencyRefs s contents = .ok refs) :
    refs.Pairwise Before ∧ (∀ ref, ref ∈ refs ↔ Depends s contents ref) ∧
      ∀ m, s.Needs (contents.map (·.module)) m → ∃ ref ∈ refs, ref.Names m := by
  obtain ⟨deps, found, rest⟩ := Outcome.bind_eq_ok_iff.mp referred
  obtain ⟨all, named, sorted⟩ := Outcome.bind_eq_ok_iff.mp rest
  obtain rfl := Outcome.pure_eq_ok_iff.mp sorted
  have each := Outcome.mapM_eq_ok_iff.mp named
  have needed := ModuleSet.mem_remoteDeps_iff built (mem_modules_of_select selected)
    (Outcome.mapError_eq_ok_iff.mp found)
  have covered : ∀ m, s.Needs (contents.map (·.module)) m →
      ∃ ref ∈ SortedMap.sortedSet all, ref.Names m := by
    intro m needs
    obtain ⟨dep, member, rfl⟩ := (needed m).mpr needs
    obtain ⟨ref, listed, made⟩ := Outcome.exists_of_forall₂ each.flip member
    exact ⟨ref, (SortedMap.mem_sortedSet ..).mpr listed, names_of_dependencyRef made⟩
  refine ⟨SortedMap.sortedSet_ascending all, fun ref => ⟨?_, ?_⟩, covered⟩
  · intro listed
    obtain ⟨dep, member, made⟩ :=
      Outcome.exists_of_forall₂ each ((SortedMap.mem_sortedSet ..).mp listed)
    exact ⟨dep.module, (needed _).mp ⟨dep, member, rfl⟩, names_of_dependencyRef made⟩
  · rintro ⟨m, needs, names⟩
    obtain ⟨other, listed, same⟩ := covered m needs
    exact names.unique same ▸ listed

/-- On one registry, references ascend by their commit ids alone. -/
theorem commitIds_ascending {registry : String} {refs : List DependencyRef}
    (ascending : refs.Pairwise Before) (same : ∀ ref ∈ refs, ref.registry = registry) :
    (refs.map (·.commitId)).Pairwise (· < ·) := by
  refine List.pairwise_map.mpr (ascending.imp_of_mem ?_)
  intro a b first second before
  change [a.commitId, a.registry] < [b.commitId, b.registry] at before
  rw [same a first, same b second, List.cons_lt_cons_iff] at before
  exact before.resolve_right fun tie => List.lt_irrefl _ tie.2

theorem checkFederation_eq_error_iff {publicRegistry registry : String}
    {refs : List DependencyRef} {error : PublishError} :
    checkFederation publicRegistry registry refs = .error error ↔
      (registry ≠ publicRegistry ∧ ∃ ref ∈ refs, ref.registry = publicRegistry) ∧
        error = .federation registry publicRegistry := by
  have condition : (registry ≠ publicRegistry ∧ refs.any (·.registry = publicRegistry)) ↔
      registry ≠ publicRegistry ∧ ∃ ref ∈ refs, ref.registry = publicRegistry := by
    simp
  unfold checkFederation
  rw [← condition]
  by_cases stopped : registry ≠ publicRegistry ∧ refs.any (·.registry = publicRegistry)
  · rw [if_pos stopped, Except.error.injEq, eq_comm]
    exact (and_iff_right stopped).symm
  · rw [if_neg stopped]
    exact ⟨fun passed => (nomatch passed), fun refused => absurd refused.1 stopped⟩

theorem isFederated_iff {registry : String} {refs : List DependencyRef} :
    isFederated registry refs = true ↔ ∃ ref ∈ refs, ref.registry ≠ registry := by
  simp [isFederated]

/-- Contents whose files can be read. -/
def Readable (contents : List Content) : Prop :=
  ∀ content ∈ contents, ∃ files, content.module.files = .ok files

theorem toUpload_total (readable : Readable contents) (labels : List String)
    (options : PublishOptions) :
    ∃ uploads, contents.mapM (toUpload labels options) = .ok uploads := by
  apply Outcome.mapM_total
  intro content member
  obtain ⟨files, read⟩ := readable content member
  exact ⟨_, Outcome.bind_eq_ok_iff.mpr ⟨files, Outcome.mapError_eq_ok_iff.mpr read, rfl⟩⟩

theorem error_of_toUpload {labels : List String} {error : PublishError}
    (failed : contents.mapM (toUpload labels options) = .error error) :
    ∃ fault, error = .module fault := by
  obtain ⟨content, -, refused⟩ := Outcome.exists_of_mapM_error failed
  rcases Outcome.bind_eq_error_iff.mp refused with unread | ⟨_, -, impossible⟩
  · obtain ⟨fault, -, rfl⟩ := Outcome.mapError_eq_error_iff.mp unread
    exact ⟨fault, rfl⟩
  · cases impossible

end Content

namespace Publishing

open MemoryRegistry (client)

variable {s : ModuleSet} {publicRegistry registry : String} {options : PublishOptions}
  {contents : List Content}

/-- With labels and references settled, preparing contents is forbidden, or some of their files
cannot be read, or all is there to be sent. -/
theorem prepare_cases {modules : List RegistryModule} {labels : List String}
    {refs : List DependencyRef} (labelled : Content.labels modules options = .ok labels)
    (referred : Content.dependencyRefs s contents = .ok refs) (publicRegistry registry : String) :
    (registry ≠ publicRegistry ∧ ∃ ref ∈ refs, ref.registry = publicRegistry) ∧
        prepare publicRegistry s options registry contents modules =
          .error (.federation registry publicRegistry) ∨
      ¬ (registry ≠ publicRegistry ∧ ∃ ref ∈ refs, ref.registry = publicRegistry) ∧
        ((∃ fault, prepare publicRegistry s options registry contents modules =
            .error (.module fault) ∧ ¬ Content.Readable contents) ∨
          ∃ uploads, prepare publicRegistry s options registry contents modules =
            .ok (uploads, refs) ∧ uploads.map (·.ref) = contents.map (·.fullName.ref)) := by
  unfold prepare
  rw [labelled, referred]
  cases checked : Content.checkFederation publicRegistry registry refs with
  | error error =>
      obtain ⟨stopped, rfl⟩ := Content.checkFederation_eq_error_iff.mp checked
      exact .inl ⟨stopped, by simp only [bind, Except.bind, checked]⟩
  | ok =>
      refine .inr ⟨fun stopped => ?_, ?_⟩
      · rw [Content.checkFederation_eq_error_iff.mpr ⟨stopped, rfl⟩] at checked
        cases checked
      · cases made : contents.mapM (Content.toUpload labels options) with
        | error error =>
            obtain ⟨fault, rfl⟩ := Content.error_of_toUpload made
            refine .inl ⟨fault, by simp only [bind, Except.bind, checked, made], fun readable => ?_⟩
            obtain ⟨uploads, read⟩ := Content.toUpload_total readable labels options
            rw [read] at made
            cases made
        | ok uploads =>
            refine .inr ⟨uploads, ?_, Content.refs_of_toUpload made⟩
            simp only [bind, Except.bind, checked, made]
            rfl

theorem sending_simple {refs : List DependencyRef} (uploads : List UploadContent)
    (all : ∀ ref ∈ refs, ref.registry = registry) :
    sending registry uploads refs = .upload registry (uploads.map (·.ref)) (uploads.map (·.labels))
      (refs.map (·.commitId)) := by
  apply if_neg
  rw [Content.isFederated_iff]
  rintro ⟨ref, among, elsewhere⟩
  exact elsewhere (all ref among)

theorem sending_federated {refs : List DependencyRef} (uploads : List UploadContent)
    (some : ∃ ref ∈ refs, ref.registry ≠ registry) :
    sending registry uploads refs =
      .uploadFederated registry (uploads.map (·.ref)) (uploads.map (·.labels)) refs :=
  if_pos (Content.isFederated_iff.mpr some)

/-- Delivering contents notes one call, and it fails only by what the registry answers. -/
theorem deliver_calls (registry : String) (contents : List Content)
    (prepared : List UploadContent × List DependencyRef) (r : MemoryRegistry) : ∃ result last,
      outcome (deliver client registry contents prepared) r = (result, last) ∧
      last.operations = r.operations ++ [sending registry prepared.1 prepared.2] ∧
      ∀ error, result = .error error → error.isAnswered = true := by
  have noted := MemoryRegistry.operations_uploading (sending registry prepared.1 prepared.2)
    prepared.1 r
  have called := outcome_call
    (MemoryRegistry.uploading (sending registry prepared.1 prepared.2) prepared.1) r
  unfold deliver
  rw [send_eq]
  rcases answer : MemoryRegistry.uploading (sending registry prepared.1 prepared.2) prepared.1 r
    with ⟨result, last⟩
  rw [answer] at noted called
  cases result with
  | error error =>
      refine ⟨_, last, outcome_bind_of_error called, noted, ?_⟩
      rintro _ ⟨⟩
      rfl
  | ok returned =>
      exact ⟨_, last, outcome_bind_of_ok called, noted,
        fun _ => Content.isAnswered_of_reconcile⟩

end Publishing

namespace ModuleSet

variable {s : ModuleSet} {publicRegistry registry : String} {options : PublishOptions}
  {contents : List Content} {r mid last : MemoryRegistry}

/-- Publishing contents of a set comes, from a state to a state, to the decision how to send them:
their modules are resolved, and the labels for them and the references of what they need are
settled. -/
structure Decides (s : ModuleSet) (options : PublishOptions) (registry : String)
    (contents : List Content) (r mid : MemoryRegistry) : Prop
    extends s.Publishes options registry contents where
  resolved : ∃ modules labels,
    Publishing.outcome (Publishing.resolve MemoryRegistry.client registry contents options) r =
      (.ok modules, mid) ∧ Content.labels modules options = .ok labels
  referred : ∃ refs, Content.dependencyRefs s contents = .ok refs

/-- How contents are sent from a state to a state, and with what result. It is forbidden if some of
what they need is on the public registry and they are not. Else, if their files can be read, there
is one call: a simple one with the ids of all that they need if that is on their registry, and a
federated one with all references if some of it is not. All modules that they depend on are sent
with them or named. -/
structure Sends (s : ModuleSet) (publicRegistry registry : String) (contents : List Content)
    (mid last : MemoryRegistry) (result : Except PublishError (List Commit)) : Prop where
  forbidden : result = .error (.federation registry publicRegistry) ↔
    registry ≠ publicRegistry ∧
      ∃ ref, Content.Depends s contents ref ∧ ref.registry = publicRegistry
  silent : result = .error (.federation registry publicRegistry) → last = mid
  simple : result ≠ .error (.federation registry publicRegistry) → Content.Readable contents →
    (∀ ref, Content.Depends s contents ref → ref.registry = registry) →
    ∃ labels ids,
      last.operations = mid.operations ++
        [.upload registry (contents.map (·.fullName.ref)) labels ids] ∧
      ids.Pairwise (· < ·) ∧
      ∀ id, id ∈ ids ↔ ∃ ref, Content.Depends s contents ref ∧ ref.commitId = id
  federated : result ≠ .error (.federation registry publicRegistry) → Content.Readable contents →
    (∃ ref, Content.Depends s contents ref ∧ ref.registry ≠ registry) →
    ∃ labels refs,
      last.operations = mid.operations ++
        [.uploadFederated registry (contents.map (·.fullName.ref)) labels refs] ∧
      refs.Pairwise Before ∧ ∀ ref, ref ∈ refs ↔ Content.Depends s contents ref
  covered : ∀ content ∈ contents, ∀ m ∈ s.modules,
    TransGen s.graph.Edge content.module.opaqueId m.opaqueId →
    m ∈ contents.map (·.module) ∨ ∃ ref, Content.Depends s contents ref ∧ ref.Names m

/-- Once the decision is reached, contents of a set that was built are sent so, whatever registries
hold and however they fail. -/
theorem sends_of_decides (built : s.IsBuilt) (publicRegistry : String)
    (decides : s.Decides options registry contents r mid) : ∃ result last,
      Publishing.outcome (s.upload MemoryRegistry.client publicRegistry options) r =
        (result, last) ∧
      s.Sends publicRegistry registry contents mid last result := by
  obtain ⟨modules, labels, resolved, labelled⟩ := decides.resolved
  obtain ⟨refs, referred⟩ := decides.referred
  obtain ⟨ascending, listed, named⟩ :=
    Content.mem_dependencyRefs_iff built decides.selected referred
  have covered : ∀ content ∈ contents, ∀ m ∈ s.modules,
      TransGen s.graph.Edge content.module.opaqueId m.opaqueId →
      m ∈ contents.map (·.module) ∨ ∃ ref, Content.Depends s contents ref ∧ ref.Names m := by
    intro content source m member path
    refine (Classical.em (m ∈ contents.map (·.module))).imp_right fun outside => ?_
    obtain ⟨ref, among, names⟩ :=
      named m ⟨member, ⟨content.module, List.mem_map_of_mem source, path⟩, outside⟩
    exact ⟨ref, (listed ref).mp among, names⟩
  have public_iff : (∃ ref ∈ refs, ref.registry = publicRegistry) ↔
      ∃ ref, Content.Depends s contents ref ∧ ref.registry = publicRegistry := by
    simp only [listed]
  rw [decides.upload_eq]
  unfold Publishing.publish
  rw [Publishing.outcome_bind_of_ok resolved]
  rcases Publishing.prepare_cases labelled referred publicRegistry registry with
    ⟨stopped, prepared⟩ | ⟨allowed, ⟨fault, prepared, unread⟩ | ⟨uploads, prepared, places⟩⟩
  · -- They may not depend on what they need, so nothing is sent.
    rw [prepared, Publishing.outcome_error_bind]
    rw [public_iff] at stopped
    exact ⟨_, mid, rfl, {
      forbidden := ⟨fun _ => stopped, fun _ => rfl⟩
      silent := fun _ => rfl
      simple := fun passed => absurd rfl passed
      federated := fun passed => absurd rfl passed
      covered := covered }⟩
  · -- Some file cannot be read, so nothing is sent either, but for another reason.
    rw [prepared, Publishing.outcome_error_bind]
    rw [public_iff] at allowed
    exact ⟨_, mid, rfl, {
      forbidden := ⟨fun failed => (nomatch failed), fun stopped => absurd stopped allowed⟩
      silent := fun _ => rfl
      simple := fun _ readable => absurd readable unread
      federated := fun _ readable => absurd readable unread
      covered := covered }⟩
  · rw [prepared, Publishing.outcome_ok_bind]
    rw [public_iff] at allowed
    obtain ⟨result, last, run, noted, answered⟩ :=
      Publishing.deliver_calls registry contents (uploads, refs) mid
    have passed : result ≠ .error (.federation registry publicRegistry) := by
      intro failed
      have answer := answered _ failed
      cases answer
    refine ⟨result, last, run, {
      forbidden := ⟨fun failed => absurd failed passed, fun stopped => absurd stopped allowed⟩
      silent := fun failed => absurd failed passed
      simple := fun _ _ all => ?_
      federated := fun _ _ some => ?_
      covered := covered }⟩
    · have here : ∀ ref ∈ refs, ref.registry = registry :=
        fun ref among => all ref ((listed ref).mp among)
      rw [Publishing.sending_simple uploads here, places] at noted
      refine ⟨_, _, noted, Content.commitIds_ascending ascending here, fun id => ?_⟩
      simp only [List.mem_map, listed]
    · have elsewhere : ∃ ref ∈ refs, ref.registry ≠ registry := by
        obtain ⟨ref, depends, other⟩ := some
        exact ⟨ref, (listed ref).mpr depends, other⟩
      rw [Publishing.sending_federated uploads elsewhere, places] at noted
      exact ⟨_, refs, noted, ascending, listed⟩

/-- A module that depends on one of another registry is sent with a reference to that. -/
theorem sends_of_module_with_dependency : ∃ (s : ModuleSet) (options : PublishOptions)
    (contents : List Content) (mid : MemoryRegistry), s.IsBuilt ∧
      s.Decides options "r.dev" contents .empty mid ∧
      (∃ ref, Content.Depends s contents ref ∧ ref.registry ≠ "r.dev") ∧ ∃ result last,
        Publishing.outcome (s.upload MemoryRegistry.client "buf.build" options) .empty =
          (result, last) ∧
        s.Sends "buf.build" "r.dev" contents mid last result := by
  let name : FullName := ⟨"r.dev", "acme", "a", by decide, by decide, by decide⟩
  let depName : FullName := ⟨"q.dev", "acme", "b", by decide, by decide, by decide⟩
  let m := Module.edited "proto" MemoryBucket.empty.toBucket (some name) true
  let dep := Module.published depName ⟨1⟩ MemoryBucket.empty.toBucket none
  let options : PublishOptions := { createMissing := true }
  let created := Store.empty.addModule "r.dev" ⟨name.ref, .isPrivate, "main"⟩
  let mid : MemoryRegistry := ⟨created.2, none, [], [.createModules "r.dev" [⟨"acme", "a"⟩]]⟩
  have apart : m.opaqueId ≠ dep.opaqueId := by decide
  have referred : Content.dependencyRefs (pair m dep) [⟨m, name⟩] =
      .ok [⟨CommitId.text ⟨1⟩, "q.dev"⟩] :=
    Content.dependencyRefs_pair apart (rfl : dep.fullName = some depName) rfl (by decide)
  have decides : (pair m dep).Decides options "r.dev" [⟨m, name⟩] .empty mid := {
    publishes_pair apart (rfl : m.fullName = some name) rfl rfl
      (rfl : dep.fullName = some depName) rfl PublishOptions.check_createMissing with
    resolved := ⟨[created.1], [], rfl, rfl⟩
    referred := ⟨_, referred⟩ }
  have built := isBuilt_pair apart
  obtain ⟨-, listed, -⟩ := Content.mem_dependencyRefs_iff built decides.selected referred
  have depends := (listed _).mp (List.mem_singleton.mpr rfl)
  exact ⟨pair m dep, options, [⟨m, name⟩], mid, built, decides, ⟨_, depends, by decide⟩,
    sends_of_decides built "buf.build" decides⟩

end ModuleSet

end SchemaModules
