import SchemaModules.Proofs.Module.Dependencies
import SchemaModules.Proofs.Publish.Run
import SchemaModules.Proofs.Registry.Creation

/-! # Uploading for the first time

Where registries keep no module of the contents yet and nothing is set to fail, the modules are
created one after another, as they are asked for. The contents are then uploaded with one call, and
that succeeds if they can be read and may be sent with what they depend on
(`ModuleSet.Publishes.upload_first`).
-/

namespace SchemaModules

/-! ## Contents of a set have modules of their own -/

theorem FullName.eq_of_ref {name other : FullName} (same : name.ref = other.ref)
    (registries : name.registry = other.registry) : name = other := by
  cases name
  cases other
  cases same
  cases registries
  rfl

namespace Content

variable {s : ModuleSet} {options : PublishOptions} {contents : List Content}

/-- Contents of a set that was built have distinct names. -/
theorem nodup_fullName_of_select (built : s.IsBuilt)
    (selected : select s options = .ok contents) : (contents.map (·.fullName)).Nodup := by
  obtain ⟨modules, names⟩ := modules_of_ofModules (ofModules_of_select selected)
  have ids : ((contents.map (·.module)).map (·.opaqueId)).Nodup := by
    rw [modules]
    exact built.nodup.sublist ((List.filter_sublist.trans List.filter_sublist).map _)
  have texts : (contents.map (·.fullName)).map (·.text) =
      (contents.map (·.module)).map (·.opaqueId) := by
    rw [List.map_map, List.map_map]
    refine List.map_congr_left fun content member => ?_
    simp [Module.opaqueId, names content member]
  exact (texts ▸ ids).of_map

theorem nodup_ref_of_primaryRegistry {registry : String}
    (distinct : (contents.map (·.fullName)).Nodup)
    (primary : primaryRegistry contents = .ok registry) :
    (contents.map (·.fullName.ref)).Nodup := by
  have here := registry_of_primaryRegistry primary
  have refs : contents.map (·.fullName.ref) = (contents.map (·.fullName)).map (·.ref) := by
    rw [List.map_map]
    rfl
  rw [refs]
  apply distinct.map_on
  intro name member other memberToo same
  obtain ⟨content, among, rfl⟩ := List.mem_map.mp member
  obtain ⟨content', amongToo, rfl⟩ := List.mem_map.mp memberToo
  exact FullName.eq_of_ref same ((here content among).trans (here content' amongToo).symm)

/-- The labels for contents whose modules have just been created. -/
def firstLabels (options : PublishOptions) : List String :=
  if options.tags = [] then options.labels
  else if options.defaultLabel ∈ options.tags then options.tags
  else options.tags ++ [options.defaultLabel]

/-- Modules that share the default label of the options have these labels. -/
theorem labels_of_shared {modules : List RegistryModule} (some : modules ≠ [])
    (shared : ∀ module ∈ modules, module.defaultLabel = options.defaultLabel) :
    labels modules options = .ok (firstLabels options) := by
  have one : SortedMap.sortedSet (modules.map (·.defaultLabel)) = [options.defaultLabel] :=
    SortedMap.sortedSet_eq_singleton_iff.mpr
      ⟨by simpa using some, List.forall_mem_map.mpr shared⟩
  unfold labels firstLabels
  rw [one]
  split <;> rfl

end Content

namespace Publishing

open MemoryRegistry (client)

variable {registry : String} {options : PublishOptions} {contents : List Content}
  {r : MemoryRegistry}

/-- The requests that create the modules of contents. -/
def requests (options : PublishOptions) (contents : List Content) : List NewModule :=
  contents.map fun content => request options content.fullName

/-- The calls that create the modules of contents one after another. -/
def creating (registry : String) (contents : List Content) : List Operation :=
  contents.map fun content => .createModules registry [content.fullName.ref]

/-- Modules that are missing are created, each by a call of its own. -/
theorem outcome_createAll_of_missing (working : r.failure = none)
    (distinct : (contents.map (·.fullName.ref)).Nodup)
    (missing : ∀ content ∈ contents,
      r.store.modules.find? (content.fullName.ref.on registry) = none) :
    outcome (contents.mapM fun content => createOrGet client registry options content.fullName) r =
      (.ok (Store.addModules registry (requests options contents) r.store).1, { r with
        store := (Store.addModules registry (requests options contents) r.store).2
        operations := r.operations ++ creating registry contents }) := by
  induction contents generalizing r with
  | nil =>
      rw [creating, List.map_nil, List.append_nil]
      rfl
  | cons content rest ih =>
      obtain ⟨here, later⟩ := List.forall_mem_cons.mp missing
      obtain ⟨once, others⟩ := List.nodup_cons.mp distinct
      have absent : ¬ r.store.modules.contains (content.fullName.ref.on registry) = true := by
        simp [SortedMap.contains, here]
      have created := outcome_createOrGet_created (createModules_of_missing options
        (MemoryRegistry.failureOf?_eq_none working .createModules) absent)
      have stays : ∀ other ∈ rest,
          (r.store.addModule registry (request options content.fullName)).2.modules.find?
            (other.fullName.ref.on registry) = none := by
        intro other member
        have apart : other.fullName.ref.on registry ≠ content.fullName.ref.on registry :=
          fun same => once (List.mem_map.mpr ⟨other, member, ModuleRef.on_injective registry same⟩)
        rw [Store.find?_addModule]
        exact (if_neg apart).trans (later other member)
      have noted : r.operations ++ creating registry (content :: rest) =
          r.operations ++ [.createModules registry [content.fullName.ref]] ++
            creating registry rest := List.append_cons ..
      rw [List.mapM_cons, outcome_bind_of_ok created, noted]
      exact outcome_bind_of_ok (ih (r := { r with
        store := (r.store.addModule registry (request options content.fullName)).2
        operations := r.operations ++ [.createModules registry [content.fullName.ref]] })
        working others stays)

/-- What is created is what was asked for. -/
theorem checkSame_addModules (registry : String) (options : PublishOptions)
    (contents : List Content) (s : Store) :
    (contents.zip (Store.addModules registry (requests options contents) s).1).forM checkSame =
      .ok () := by
  induction contents generalizing s with
  | nil => rfl
  | cons content rest ih =>
      rw [requests, List.map_cons, Store.addModules_cons, List.zip_cons_cons]
      exact Outcome.bind_eq_ok_iff.mpr ⟨(), if_pos rfl, ih _⟩

theorem defaultLabel_of_addModules {s : Store} {module : RegistryModule}
    (member : module ∈ (Store.addModules registry (requests options contents) s).1) :
    module.defaultLabel = options.defaultLabel := by
  have asked : module.asked ∈ requests options contents := by
    rw [← Store.asked_addModules registry (requests options contents) s]
    exact List.mem_map_of_mem member
  obtain ⟨content, -, same⟩ := List.mem_map.mp asked
  exact (congrArg NewModule.defaultLabel same).symm

theorem outcome_resolve_of_missing (create : options.createMissing = true)
    (working : r.failure = none) (distinct : (contents.map (·.fullName.ref)).Nodup)
    (missing : ∀ content ∈ contents,
      r.store.modules.find? (content.fullName.ref.on registry) = none) :
    outcome (resolve client registry contents options) r =
      (.ok (Store.addModules registry (requests options contents) r.store).1, { r with
        store := (Store.addModules registry (requests options contents) r.store).2
        operations := r.operations ++ creating registry contents }) := by
  unfold resolve
  rw [if_pos create, outcome_bind_of_ok (outcome_createAll_of_missing working distinct missing)]
  dsimp only
  rw [checkSame_addModules, outcome_ok_bind]
  rfl

end Publishing

namespace ModuleSet

open MemoryRegistry (client)
open Publishing (outcome)

variable {s : ModuleSet} {publicRegistry registry : String} {options : PublishOptions}
  {contents : List Content} {r : MemoryRegistry}

theorem Publishes.nodup_ref (publishes : s.Publishes options registry contents)
    (built : s.IsBuilt) : (contents.map (·.fullName.ref)).Nodup :=
  Content.nodup_ref_of_primaryRegistry
    (Content.nodup_fullName_of_select built publishes.selected) publishes.primary

/-- Contents are created and then uploaded with one call, if their modules are missing, and there is
a commit for each. They are read and what they depend on is allowed; nothing is set to fail or left
out of answers. Each of them takes an id for its module and one for its commit. -/
theorem Publishes.upload_first (publishes : s.Publishes options registry contents)
    (built : s.IsBuilt) {deps : List DependencyRef} {uploads : List UploadContent}
    (create : options.createMissing = true)
    (referred : Content.dependencyRefs s contents = .ok deps)
    (federable : Content.checkFederation publicRegistry registry deps = .ok ())
    (made : contents.mapM (Content.toUpload (Content.firstLabels options) options) = .ok uploads)
    (working : r.failure = none) (faithful : r.omissions = [])
    (missing : ∀ content ∈ contents,
      r.store.modules.find? (content.fullName.ref.on registry) = none)
    (positive : 0 < r.store.nextId) (room : r.store.nextId + 2 * contents.length < 2 ^ 128) :
    ∃ commits last, outcome (s.upload client publicRegistry options) r = (.ok commits, last) ∧
      commits.length = contents.length ∧
      last.store.nextId = r.store.nextId + 2 * contents.length ∧
      last.store.modules =
        (Store.addModules registry (Publishing.requests options contents) r.store).2.modules ∧
      last.operations = r.operations ++ Publishing.creating registry contents ++
        [Publishing.sending registry uploads deps] := by
  have distinct := publishes.nodup_ref built
  have refs : (Publishing.requests options contents).map (·.ref) =
      contents.map (·.fullName.ref) := List.map_map
  rcases added : Store.addModules registry (Publishing.requests options contents) r.store with
    ⟨created, settled⟩
  have resolved := Publishing.outcome_resolve_of_missing create working distinct missing
  rw [added] at resolved
  have fetched : settled.getModules registry (uploads.map (·.ref)) = .ok created := by
    have got := @Store.getModules_addModules registry _ (refs ▸ distinct) r.store
    rwa [added, refs, ← Content.refs_of_toUpload made] at got
  have sized : created.length = contents.length := by
    have asked := Store.asked_addModules registry (Publishing.requests options contents) r.store
    rw [added] at asked
    simpa [Publishing.requests] using congrArg List.length asked
  have labelled : Content.labels created options = .ok (Content.firstLabels options) := by
    refine Content.labels_of_shared ?_ fun module member => ?_
    · rintro rfl
      exact publishes.filled (List.eq_nil_of_length_eq_zero sized.symm)
    · exact Publishing.defaultLabel_of_addModules (by rwa [added])
  have prepared := Publishing.prepare_eq_ok_iff.mpr
    ⟨Content.firstLabels options, labelled, referred, federable, made⟩
  rcases published : Store.publishAll registry (uploads.zip created) settled with ⟨returned, t⟩
  have uploaded := Store.upload_eq_ok_iff.mpr ⟨created, fetched, published⟩
  have grown : settled.nextId = r.store.nextId + contents.length := by
    have counted := Store.nextId_addModules registry (Publishing.requests options contents) r.store
    rwa [added, Publishing.requests, List.length_map] at counted
  have handed : t.nextId = r.store.nextId + 2 * contents.length := by
    have counted : t.nextId = settled.nextId + (uploads.zip created).length := by
      rw [← @Store.nextId_publishAll registry, published]
    have paired := (Outcome.mapM_eq_ok_iff.mp made).length_eq
    rw [List.length_zip] at counted
    omega
  obtain ⟨commits, read, each, -⟩ :=
    Content.reconcile_upload made uploaded (by omega) (handed.trans_lt room)
  have run := Publishing.outcome_publish resolved prepared faithful
    (MemoryRegistry.failureOf?_eq_none working _) uploaded
  rw [← publishes.upload_eq, read] at run
  exact ⟨commits, _, run, each.length_eq.symm, handed, Store.modules_of_upload uploaded, rfl⟩

/-- A module of the workspace and one that it depends on are created one after the other and
uploaded together. -/
theorem upload_first_pair {m dep : Module} {name depName : FullName}
    {files depFiles : List (String × Bytes)} (apart : m.opaqueId ≠ dep.opaqueId)
    (named : m.fullName = some name) (depNamed : dep.fullName = some depName)
    (same : depName.registry = name.registry) (here : m.isLocal = true)
    (target : m.isTarget = true) (depHere : dep.isLocal = true) (other : dep.isTarget = false)
    (read : m.files = .ok files) (depRead : dep.files = .ok depFiles) (publicRegistry : String) :
    ∃ commits last, outcome ((pair m dep).upload client publicRegistry { createMissing := true })
        .empty = (.ok commits, last) ∧
      commits.length = 2 ∧ last.store.InRange ∧ last.operations =
        [.createModules name.registry [name.ref], .createModules name.registry [depName.ref],
          .upload name.registry [name.ref, depName.ref] [[], []] []] := by
  have publishes := publishes_pair_both apart named here target depNamed depHere other same
    PublishOptions.check_createMissing
  have made : [⟨m, name⟩, ⟨dep, depName⟩].mapM (Content.toUpload [] { createMissing := true }) =
      .ok [⟨name.ref, files, [], none⟩, ⟨depName.ref, depFiles, [], none⟩] := by
    simp only [List.mapM_cons, List.mapM_nil, Content.toUpload, read, depRead]
    rfl
  have room : MemoryRegistry.empty.store.nextId + 2 * 2 < 2 ^ 128 := by decide
  obtain ⟨commits, last, run, counted, handed, -, noted⟩ := publishes.upload_first
    (isBuilt_pair apart) rfl (Content.dependencyRefs_pair_both apart) (if_neg (by simp)) made rfl rfl
    (fun _ _ => rfl) (by decide) room
  exact ⟨commits, last, run, counted, handed.trans_lt room, noted⟩

end ModuleSet

end SchemaModules
