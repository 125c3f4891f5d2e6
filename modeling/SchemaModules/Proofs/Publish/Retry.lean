import SchemaModules.Bucket.Memory
import SchemaModules.Proofs.Publish.Run

/-! # Publishing again after a failure

However an upload fails, it has done nothing but resolve some of its contents
(`publish_stops`), and resolving them again makes no difference (`publish_again`). So once the cause
is gone, it comes to what it would have come to at first.
-/

namespace SchemaModules

namespace Publishing

open MemoryRegistry (client)

variable {α β : Type} {p : Publishing MemoryRegistry α} {f : α → Publishing MemoryRegistry β}

/-! ## The calls that were noted make no difference -/

/-- The outcome of a course is the same whatever calls were noted before it. -/
def Blind (p : Publishing MemoryRegistry α) : Prop :=
  ∀ (r : MemoryRegistry) (operations : List Operation), ∃ noted,
    outcome p { r with operations := operations } =
      ((outcome p r).1, { (outcome p r).2 with operations := noted })

theorem blind_given (x : Except PublishError α) : Blind (given x) :=
  fun _ operations => ⟨operations, rfl⟩

theorem Blind.bind (first : Blind p) (next : ∀ a, Blind (f a)) : Blind (p >>= f) := by
  intro r operations
  obtain ⟨noted, same⟩ := first r operations
  rcases run : outcome p r with ⟨result, last⟩
  rw [run] at same
  cases result with
  | error error =>
      rw [outcome_bind_of_error run, outcome_bind_of_error same]
      exact ⟨noted, rfl⟩
  | ok a =>
      rw [outcome_bind_of_ok run, outcome_bind_of_ok same]
      exact next a last noted

theorem blind_send (registry : String) (uploads : List UploadContent) (deps : List DependencyRef) :
    Blind (send client registry uploads deps) := by
  rw [send_eq]
  intro r operations
  refine ⟨operations ++ [sending registry uploads deps], ?_⟩
  simp only [outcome_call, MemoryRegistry.uploading, MemoryRegistry.perform,
    MemoryRegistry.failureOf?]
  split <;> rfl

variable {publicRegistry registry : String} {s : ModuleSet} {options : PublishOptions}
  {contents : List Content} {r last : MemoryRegistry}

theorem blind_deliver (registry : String) (contents : List Content)
    (prepared : List UploadContent × List DependencyRef) :
    Blind (deliver client registry contents prepared) :=
  (blind_send registry prepared.1 prepared.2).bind fun _ => blind_given _

/-! ## What was done, and doing it again -/

/-- If publishing fails, it has resolved some of the contents and done nothing else. -/
theorem publish_stops {error : PublishError}
    (failed : outcome (publish client publicRegistry s options registry contents) r =
      (.error error, last))
    (faithful : r.omissions = []) (positive : 0 < r.store.nextId) (room : last.store.InRange) :
    ∃ done operations, done <+: contents ∧ last = { r with
      store := r.store.settle registry options (done.map (·.fullName))
      operations := operations } := by
  rcases publish_cases failed faithful with
    ⟨modules, labels, uploads, returned, -, -, made, uploaded, read⟩ | ⟨-, stopped⟩
  · -- What a store answers in full can be read back, so this is no failure.
    have grown :=
      (Store.changes_settle registry options (contents.map (·.fullName)) r.store).nextId_le
    obtain ⟨commits, found, -⟩ :=
      Content.reconcile_upload made uploaded (Nat.lt_of_lt_of_le positive grown) room
    cases found.symm.trans read
  · exact stopped

/-- Where nothing is set to fail, publishing comes to the same if some of the contents have been
resolved before. -/
theorem publish_again (publicRegistry : String) (s : ModuleSet) (options : PublishOptions)
    (registry : String) {done : List Content} (before : done <+: contents)
    (working : r.failure = none) (operations : List Operation) : ∃ noted,
      outcome (publish client publicRegistry s options registry contents) { r with
          store := r.store.settle registry options (done.map (·.fullName))
          operations := operations } =
        ((outcome (publish client publicRegistry s options registry contents) r).1,
          { (outcome (publish client publicRegistry s options registry contents) r).2 with
            operations := noted }) := by
  obtain ⟨fresh, whole, freshNoted, freshRun, -, freshEnds⟩ :=
    resolve_settles registry options contents r
  obtain ⟨again, all, againNoted, againRun, -, againEnds⟩ :=
    resolve_settles registry options contents { r with
      store := r.store.settle registry options (done.map (·.fullName)), operations := operations }
  -- Where nothing is set to fail, both runs resolve all contents, and what was resolved before is
  -- resolved to the same.
  rcases freshEnds with ⟨rfl, rfl⟩ | ⟨set, -⟩
  · rcases againEnds with ⟨rfl, rfl⟩ | ⟨set, -⟩
    · rw [Store.settle_settle (before.map _)] at againRun
      unfold publish
      rcases resolved : resolution registry all
        (r.store.settle registry options (all.map (·.fullName))) with error | modules
      · rw [resolved] at freshRun againRun
        rw [outcome_bind_of_error freshRun, outcome_bind_of_error againRun]
        exact ⟨againNoted, rfl⟩
      · rw [resolved] at freshRun againRun
        rw [outcome_bind_of_ok freshRun, outcome_bind_of_ok againRun]
        have blind := (blind_given (prepare publicRegistry s options registry all modules)).bind
          (blind_deliver registry all)
        exact blind { r with
          store := r.store.settle registry options (all.map (·.fullName))
          operations := freshNoted } againNoted
    · exact absurd working set
  · exact absurd working set

end Publishing

/-- An upload of a set that failed, from a state to a state, can be tried again. It has left all as
it was but for modules of contents, which were missing. From there, if nothing is set to fail, the
upload comes to the result that it would have come to from the first state, and to the same state,
but for the calls that are noted. -/
structure ModuleSet.Retriable (s : ModuleSet) (publicRegistry : String) (options : PublishOptions)
    (r last : MemoryRegistry) : Prop where
  labels : last.store.labels = r.store.labels
  commits : last.store.commits = r.store.commits
  organizations : last.store.organizations = r.store.organizations
  kept : ∀ place module, r.store.modules.find? place = some module →
    last.store.modules.find? place = some module
  added : ∀ place module, last.store.modules.find? place = some module →
    r.store.modules.find? place = some module ∨
      r.store.modules.find? place = none ∧ ∃ contents, Content.select s options = .ok contents ∧
        ∃ content ∈ contents, place = content.fullName.ref.on content.fullName.registry
  again : ∃ result fresh noted,
    Publishing.outcome (s.upload MemoryRegistry.client publicRegistry options)
      { r with failure := none } = (result, fresh) ∧
    Publishing.outcome (s.upload MemoryRegistry.client publicRegistry options)
      { last with failure := none } = (result, { fresh with operations := noted })

/-- An upload that fails, for whatever failure that is set, can be tried again. This is so from all
states that registries come to, if they leave nothing out of their answers. -/
theorem ModuleSet.retriable_of_failed_upload {s : ModuleSet} {publicRegistry : String}
    {options : PublishOptions} {r last : MemoryRegistry} {failure : Method × RegistryError}
    {error : PublishError} (reachable : r.Reachable) (faithful : r.omissions = [])
    (failed : Publishing.outcome (s.upload MemoryRegistry.client publicRegistry options)
      { r with failure := some failure } = (.error error, last))
    (room : last.store.InRange) : s.Retriable publicRegistry options r last := by
  rcases s.upload_cases MemoryRegistry.client publicRegistry options with
    ⟨registry, contents, publishes⟩ | ⟨result, same, -⟩
  · rw [publishes.upload_eq] at failed
    obtain ⟨done, operations, before, rfl⟩ :=
      Publishing.publish_stops failed faithful reachable.numbered.positive room
    have extended :=
      Store.extends_settle registry options (done.map (·.fullName)) r.store
    refine ⟨extended.labels, extended.commits, extended.organizations, extended.kept, ?_, ?_⟩
    · intro place module found
      refine (extended.added place module found).imp_right ?_
      rintro ⟨missing, name, member, rfl⟩
      obtain ⟨content, among, rfl⟩ := List.mem_map.mp member
      have selected := before.subset among
      refine ⟨missing, contents, publishes.selected, content, selected, ?_⟩
      rw [Content.registry_of_primaryRegistry publishes.primary content selected]
    · obtain ⟨noted, same⟩ := Publishing.publish_again publicRegistry s options registry
        (r := { r with failure := none }) before rfl operations
      rw [publishes.upload_eq]
      exact ⟨_, _, noted, rfl, same⟩
  · rw [same, Publishing.outcome_given] at failed
    obtain rfl := congrArg Prod.snd failed
    refine ⟨rfl, rfl, rfl, fun _ _ found => found, fun _ _ found => .inl found, ?_⟩
    rw [same]
    exact ⟨result, _, r.operations, rfl, rfl⟩

/-- A module that depends on one of another registry is uploaded to registries that keep nothing. It
is created, the upload is refused, and all can be tried again. -/
theorem ModuleSet.retriable_of_refused_upload : ∃ (s : ModuleSet) (options : PublishOptions)
    (failure : Method × RegistryError) (error : PublishError) (last : MemoryRegistry),
    MemoryRegistry.empty.Reachable ∧ MemoryRegistry.empty.omissions = [] ∧
      Publishing.outcome (s.upload MemoryRegistry.client "buf.build" options)
        { MemoryRegistry.empty with failure := some failure } = (.error error, last) ∧
      last.store.InRange ∧ last.store.modules.size = 1 ∧
      s.Retriable "buf.build" options .empty last := by
  let name : FullName := ⟨"r.dev", "acme", "a", by decide, by decide, by decide⟩
  let depName : FullName := ⟨"q.dev", "acme", "b", by decide, by decide, by decide⟩
  let m := Module.edited "proto" MemoryBucket.empty.toBucket (some name) true
  let dep := Module.published depName ⟨1⟩ MemoryBucket.empty.toBucket none
  let options : PublishOptions := { createMissing := true }
  let contents : List Content := [⟨m, name⟩]
  let failure : Method × RegistryError := (.uploadFederated, .unavailable "down")
  let created := (Store.empty.addModule "r.dev" (Publishing.request options name)).1
  let settled := (Store.empty.addModule "r.dev" (Publishing.request options name)).2
  let mid : MemoryRegistry := ⟨settled, some failure, [], [.createModules "r.dev" [⟨"acme", "a"⟩]]⟩
  have apart : m.opaqueId ≠ dep.opaqueId := by decide
  have publishes : (pair m dep).Publishes options "r.dev" contents :=
    publishes_pair apart (rfl : m.fullName = some name) rfl rfl rfl rfl
      PublishOptions.check_createMissing
  have resolved : Publishing.outcome (Publishing.resolve MemoryRegistry.client "r.dev" contents
      options) { MemoryRegistry.empty with failure := some failure } = (.ok [created], mid) := by
    rfl
  have prepared : Publishing.prepare "buf.build" (pair m dep) options "r.dev" contents [created] =
      .ok ([⟨⟨"acme", "a"⟩, [], [], none⟩], [⟨CommitId.text ⟨1⟩, "q.dev"⟩]) := by
    refine Publishing.prepare_eq_ok_iff.mpr ⟨[], rfl, ?_, by rfl, rfl⟩
    exact Content.dependencyRefs_pair apart (rfl : dep.fullName = some depName) rfl (by decide)
  have failed : ∃ error last,
      Publishing.outcome ((pair m dep).upload MemoryRegistry.client "buf.build" options)
        { MemoryRegistry.empty with failure := some failure } = (.error error, last) ∧
      last.store = settled := by
    rw [publishes.upload_eq]
    unfold Publishing.publish
    rw [Publishing.outcome_bind_of_ok resolved, prepared, Publishing.outcome_ok_bind]
    exact ⟨_, _, rfl, rfl⟩
  obtain ⟨error, last, run, kept⟩ := failed
  have room : last.store.InRange := by
    rw [kept]
    decide
  refine ⟨pair m dep, options, failure, error, last, .refl, rfl, run, room, ?_,
    retriable_of_failed_upload .refl rfl run room⟩
  rw [kept]
  rfl

end SchemaModules
