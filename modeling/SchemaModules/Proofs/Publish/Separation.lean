import SchemaModules.Bucket.Memory
import SchemaModules.Proofs.Publish.FirstUpload
import SchemaModules.Proofs.Registry.Separation

/-! # Publishing among other registries

Publishing calls its primary registry and no other (`Publishing.keepsTo_publish`), also where it
sends what is depended on elsewhere. So what other registries keep is left as it was
(`MemoryRegistry.separate_of_reachable`).
-/

namespace SchemaModules

open MemoryRegistry (client)

namespace Publishing

variable {α β : Type} {registry : String} {p : Publishing MemoryRegistry α}
  {f : α → Publishing MemoryRegistry β}

/-- A course makes no calls but to a registry. -/
def KeepsTo (registry : String) (p : Publishing MemoryRegistry α) : Prop :=
  ∀ r, MemoryRegistry.Calls registry r (outcome p r).2

theorem keepsTo_given (registry : String) (x : Except PublishError α) :
    KeepsTo registry (given x) :=
  fun _ => .refl

theorem keepsTo_call {c : Call MemoryRegistry α} (request : Request)
    (made : ∀ r, (c r).2 = request.after r) :
    KeepsTo request.operation.registry (call c) := by
  intro r
  rw [outcome_call, made]
  exact .single request r

theorem keepsTo_attempt {c : Call MemoryRegistry α} (request : Request)
    (made : ∀ r, (c r).2 = request.after r) :
    KeepsTo request.operation.registry (attempt c) :=
  keepsTo_call request made

theorem KeepsTo.bind (first : KeepsTo registry p) (next : ∀ a, KeepsTo registry (f a)) :
    KeepsTo registry (p >>= f) := by
  intro r
  have calls := first r
  rcases run : outcome p r with ⟨result, mid⟩
  rw [run] at calls
  cases result with
  | error error =>
      rw [outcome_bind_of_error run]
      exact calls
  | ok a =>
      rw [outcome_bind_of_ok run]
      exact calls.trans (next a mid)

/-- Steps that keep to a registry do so one after another. -/
theorem KeepsTo.mapM {step : β → Publishing MemoryRegistry α}
    (each : ∀ b, KeepsTo registry (step b)) (list : List β) :
    KeepsTo registry (list.mapM step) := by
  induction list with
  | nil => exact keepsTo_given registry (.ok [])
  | cons b rest ih =>
      rw [List.mapM_cons]
      exact (each b).bind fun a => ih.bind fun more => keepsTo_given registry (.ok (a :: more))

/-! ## What publishing does -/

theorem keepsTo_getModules (registry : String) (refs : List ModuleRef) :
    KeepsTo registry (call (client.getModules registry refs)) :=
  keepsTo_call (.getModules registry refs) fun _ => rfl

theorem keepsTo_createOrGet (registry : String) (options : PublishOptions) (name : FullName) :
    KeepsTo registry (createOrGet client registry options name) := by
  unfold createOrGet
  apply (keepsTo_attempt (.createModules registry [request options name]) fun _ => rfl).bind
  intro answer
  extract_lets single
  have ends : ∀ modules, KeepsTo registry (single modules) := by
    intro modules
    unfold single
    split
    · exact keepsTo_given registry (.ok _)
    · exact keepsTo_given registry (.error _)
  split
  · exact (keepsTo_given registry (.ok _)).bind ends
  · exact (keepsTo_getModules registry [name.ref]).bind ends
  · exact (keepsTo_given registry (.error _)).bind ends

theorem keepsTo_getAll (registry : String) (contents : List Content) :
    KeepsTo registry (getAll client registry contents) := by
  unfold getAll
  apply (keepsTo_getModules registry _).bind
  intro modules
  split
  · exact keepsTo_given registry (.error _)
  · exact keepsTo_given registry (.ok _)

theorem keepsTo_resolve (registry : String) (contents : List Content) (options : PublishOptions) :
    KeepsTo registry (resolve client registry contents options) := by
  have checked (modules : List RegistryModule) : KeepsTo registry (do
      given ((contents.zip modules).forM checkSame)
      return modules) :=
    (keepsTo_given registry _).bind fun _ => keepsTo_given registry (.ok modules)
  unfold resolve
  dsimp only
  split
  · have created : KeepsTo registry (contents.mapM fun content =>
        createOrGet client registry options content.fullName) := by
      apply KeepsTo.mapM
      intro content
      exact keepsTo_createOrGet registry options content.fullName
    exact created.bind checked
  · exact (keepsTo_getAll registry contents).bind checked

theorem keepsTo_send (registry : String) (uploads : List UploadContent)
    (deps : List DependencyRef) : KeepsTo registry (send client registry uploads deps) := by
  unfold send
  split
  · exact keepsTo_call (.uploadFederated registry uploads deps) fun _ => rfl
  · exact keepsTo_call (.upload registry uploads _) fun _ => rfl

/-- Publishing makes no calls but to its registry. -/
theorem keepsTo_publish (publicRegistry : String) (s : ModuleSet) (options : PublishOptions)
    (registry : String) (contents : List Content) :
    KeepsTo registry (publish client publicRegistry s options registry contents) := by
  unfold publish
  apply (keepsTo_resolve registry contents options).bind
  intro modules
  apply (keepsTo_given registry _).bind
  intro prepared
  apply (keepsTo_send registry prepared.1 prepared.2).bind
  intro returned
  exact keepsTo_given registry _

end Publishing

/-- Contents of a set are to be published on one registry, if on any. -/
theorem ModuleSet.Publishes.registry_eq {s : ModuleSet} {options : PublishOptions}
    {registry other : String} {contents others : List Content}
    (publishes : s.Publishes options registry contents)
    (again : s.Publishes options other others) : other = registry := by
  obtain rfl := Except.ok.inj (again.selected.symm.trans publishes.selected)
  exact Except.ok.inj (again.primary.symm.trans publishes.primary)

namespace MemoryRegistry

variable {r : MemoryRegistry}

/-- An upload calls no registry but the one that contents are to be published on. -/
theorem calls_upload (s : ModuleSet) (publicRegistry : String) (options : PublishOptions)
    (r : MemoryRegistry) :
    (∃ registry contents, s.Publishes options registry contents ∧
      Calls registry r (Publishing.outcome (s.upload client publicRegistry options) r).2) ∨
    (Publishing.outcome (s.upload client publicRegistry options) r).2 = r := by
  rcases s.upload_cases client publicRegistry options with
    ⟨registry, contents, publishes⟩ | ⟨result, same, -⟩
  · refine .inl ⟨registry, contents, publishes, ?_⟩
    rw [publishes.upload_eq]
    exact Publishing.keepsTo_publish publicRegistry s options registry contents r
  · rw [same]
    exact .inr rfl

/-- A call leaves what is kept of every other registry as it is, whether it fails or not, and so
does an upload, which changes no registry but the one that contents are to be published on. -/
theorem separate_of_reachable (reachable : r.Reachable) :
    (∀ request : Request, (request.after r).store.InRange →
      ∀ other, other ≠ request.operation.registry →
        r.store.SameOn other (request.after r).store) ∧
    ∀ (s : ModuleSet) (publicRegistry : String) (options : PublishOptions)
      (result : Except PublishError (List Commit)) (last : MemoryRegistry),
      Publishing.outcome (s.upload client publicRegistry options) r = (result, last) →
      last.store.InRange →
      ∀ other, (¬ ∃ contents, s.Publishes options other contents) →
        r.store.SameOn other last.store := by
  constructor
  · intro request room other apart
    exact (Calls.single request r).sameOn reachable room apart
  · intro s publicRegistry options result last run room other elsewhere
    have calls := calls_upload s publicRegistry options r
    rw [run] at calls
    rcases calls with ⟨registry, contents, publishes, calls⟩ | rfl
    · apply calls.sameOn reachable room
      rintro rfl
      exact elsewhere ⟨contents, publishes⟩
    · exact .refl other last.store

/-- A module is made and published next to the registry of its dependency, which keeps what it
kept. -/
theorem separate_of_dependency_elsewhere : ∃ (r : MemoryRegistry) (s : ModuleSet)
    (options : PublishOptions) (contents : List Content) (request : Request)
    (result : Except PublishError (List Commit)) (last : MemoryRegistry), r.Reachable ∧
      r.store.modules.contains ⟨"q.dev", "acme", "b"⟩ = true ∧
      s.Publishes options "r.dev" contents ∧
      Content.dependencyRefs s contents = .ok [⟨CommitId.text ⟨1⟩, "q.dev"⟩] ∧
      Publishing.outcome (s.upload client "buf.build" options) r = (result, last) ∧
      last.store.nextId = r.store.nextId + 2 ∧ request.operation.registry = "r.dev" ∧
      r.store.SameOn "q.dev" (request.after r).store ∧ r.store.SameOn "q.dev" last.store := by
  let name : FullName := ⟨"r.dev", "acme", "a", by decide, by decide, by decide⟩
  let depName : FullName := ⟨"q.dev", "acme", "b", by decide, by decide, by decide⟩
  let m := Module.edited "proto" MemoryBucket.empty.toBucket (some name) true
  let dep := Module.published depName ⟨1⟩ MemoryBucket.empty.toBucket none
  let options : PublishOptions := { createMissing := true }
  let contents : List Content := [⟨m, name⟩]
  let r := (empty.seedModule "q.dev" depName.ref "main").2
  let refs : List DependencyRef := [⟨CommitId.text ⟨1⟩, "q.dev"⟩]
  let request : Request := .createOrganization "r.dev" "acme"
  have apart : m.opaqueId ≠ dep.opaqueId := by decide
  have reachable : r.Reachable := .single (.seedModule empty "q.dev" depName.ref "main")
  have publishes : (ModuleSet.pair m dep).Publishes options "r.dev" contents :=
    ModuleSet.publishes_pair apart (rfl : m.fullName = some name) rfl rfl
      (rfl : dep.fullName = some depName) rfl PublishOptions.check_createMissing
  have referred : Content.dependencyRefs (ModuleSet.pair m dep) contents = .ok refs :=
    Content.dependencyRefs_pair apart (rfl : dep.fullName = some depName) rfl (by decide)
  have federable : Content.checkFederation "buf.build" "r.dev" refs = .ok () := by
    rfl
  have made : contents.mapM (Content.toUpload (Content.firstLabels options) options) =
      .ok [⟨name.ref, [], [], none⟩] := by
    rfl
  have missing : ∀ content ∈ contents,
      r.store.modules.find? (content.fullName.ref.on "r.dev") = none := by
    intro content member
    obtain rfl := List.mem_singleton.mp member
    decide
  have small : r.store.nextId + 2 * contents.length < 2 ^ 128 := by decide
  obtain ⟨commits, last, run, -, handed, -⟩ := publishes.upload_first (ModuleSet.isBuilt_pair apart)
    rfl referred federable made rfl rfl missing (by decide) small
  have room : last.store.InRange := handed.trans_lt small
  obtain ⟨calls, uploads⟩ := separate_of_reachable reachable
  have elsewhere : ¬ ∃ others, (ModuleSet.pair m dep).Publishes options "q.dev" others := by
    rintro ⟨others, again⟩
    exact absurd (publishes.registry_eq again) (by decide)
  exact ⟨r, _, options, contents, request, _, last, reachable, by decide, publishes, referred,
    run, handed, rfl, calls request (by decide) "q.dev" (by decide),
    uploads _ "buf.build" options _ last run room "q.dev" elsewhere⟩

end MemoryRegistry

end SchemaModules
