import SchemaModules.Proofs.Publish.Content

/-! # The parts of publishing

Publishing contents is resolving them, preparing an upload, which asks nothing of registries, and
delivering it (`uploadContents_eq`). Whether a set comes to that does not depend on what registries
hold (`upload_cases`).
-/

namespace SchemaModules

namespace Publishing

variable {σ α β : Type}

theorem given_bind (x : Except PublishError α) (f : α → Except PublishError β) :
    (given (x >>= f) : Publishing σ β) = given x >>= fun a => given (f a) := by
  cases x <;> rfl

variable {client : Client σ} {publicRegistry registry : String} {s : ModuleSet}
  {options : PublishOptions} {contents : List Content}

/-- What is uploaded of contents whose modules were resolved, and what it depends on. -/
def prepare (publicRegistry : String) (s : ModuleSet) (options : PublishOptions) (registry : String)
    (contents : List Content) (modules : List RegistryModule) :
    Except PublishError (List UploadContent × List DependencyRef) := do
  let labels ← Content.labels modules options
  let deps ← Content.dependencyRefs s contents
  Content.checkFederation publicRegistry registry deps
  let uploads ← contents.mapM (Content.toUpload labels options)
  return (uploads, deps)

/-- Send what was prepared, and read the commits of contents out of the answer. -/
def deliver (client : Client σ) (registry : String) (contents : List Content)
    (prepared : List UploadContent × List DependencyRef) : Publishing σ (List Commit) := do
  let returned ← send client registry prepared.1 prepared.2
  given (Content.reconcile contents returned)

/-- Resolve contents, prepare them and deliver them. -/
def publish (client : Client σ) (publicRegistry : String) (s : ModuleSet) (options : PublishOptions)
    (registry : String) (contents : List Content) : Publishing σ (List Commit) := do
  let modules ← resolve client registry contents options
  let prepared ← given (prepare publicRegistry s options registry contents modules)
  deliver client registry contents prepared

theorem prepare_eq_ok_iff {modules : List RegistryModule} {uploads : List UploadContent}
    {deps : List DependencyRef} :
    prepare publicRegistry s options registry contents modules = .ok (uploads, deps) ↔
      ∃ labels, Content.labels modules options = .ok labels ∧
        Content.dependencyRefs s contents = .ok deps ∧
        Content.checkFederation publicRegistry registry deps = .ok () ∧
        contents.mapM (Content.toUpload labels options) = .ok uploads := by
  simp only [prepare, Outcome.bind_eq_ok_iff, Outcome.pure_eq_ok_iff, Prod.mk.injEq]
  constructor
  · rintro ⟨labels, labelled, found, referred, ⟨⟩, federable, made, uploaded, rfl, rfl⟩
    exact ⟨labels, labelled, referred, federable, uploaded⟩
  · rintro ⟨labels, labelled, referred, federable, uploaded⟩
    exact ⟨labels, labelled, deps, referred, (), federable, uploads, uploaded, rfl, rfl⟩

theorem uploadContents_eq (primary : Content.primaryRegistry contents = .ok registry) :
    uploadContents client publicRegistry s options contents =
      publish client publicRegistry s options registry contents := by
  unfold uploadContents publish prepare deliver
  rw [primary]
  simp only [given_bind, bind_assoc]
  rfl

end Publishing

/-- Options that only say to create missing modules are in order. -/
theorem PublishOptions.check_createMissing :
    ({ createMissing := true } : PublishOptions).check = .ok () := by
  have valid : IsLabelName "main" := by decide
  simp only [check, checkLabelName, if_pos valid]
  rfl

namespace ModuleSet

variable {σ : Type} {s : ModuleSet} {options : PublishOptions}

/-- Contents of a set are to be published on a registry. -/
structure Publishes (s : ModuleSet) (options : PublishOptions) (registry : String)
    (contents : List Content) : Prop where
  checked : options.check = .ok ()
  selected : Content.select s options = .ok contents
  filled : contents ≠ []
  primary : Content.primaryRegistry contents = .ok registry

theorem Publishes.upload_eq {registry : String} {contents : List Content}
    (publishes : s.Publishes options registry contents) (client : Client σ)
    (publicRegistry : String) :
    s.upload client publicRegistry options =
      Publishing.publish client publicRegistry s options registry contents := by
  have some : contents.isEmpty = false := by
    simpa using publishes.filled
  unfold upload
  rw [publishes.checked, publishes.selected]
  change (if contents.isEmpty then pure [] else Publishing.uploadContents client publicRegistry s
    options contents) = _
  rw [some, ← Publishing.uploadContents_eq publishes.primary]
  rfl

theorem publishes_pair {m dep : Module} {name depName : FullName}
    (apart : m.opaqueId ≠ dep.opaqueId) (named : m.fullName = some name) (here : m.isLocal = true)
    (target : m.isTarget = true) (depNamed : dep.fullName = some depName)
    (remote : dep.isLocal = false) (checked : options.check = .ok ()) :
    (pair m dep).Publishes options name.registry [⟨m, name⟩] where
  checked := checked
  selected := Content.select_pair apart depNamed named here target remote options
  filled := List.cons_ne_nil _ _
  primary := rfl

theorem publishes_pair_both {m dep : Module} {name depName : FullName}
    (apart : m.opaqueId ≠ dep.opaqueId) (named : m.fullName = some name) (here : m.isLocal = true)
    (target : m.isTarget = true) (depNamed : dep.fullName = some depName)
    (depHere : dep.isLocal = true) (other : dep.isTarget = false)
    (same : depName.registry = name.registry) (checked : options.check = .ok ()) :
    (pair m dep).Publishes options name.registry [⟨m, name⟩, ⟨dep, depName⟩] where
  checked := checked
  selected := Content.select_pair_both apart depNamed named here target depHere other options
  filled := List.cons_ne_nil _ _
  primary := Content.primaryRegistry_eq_ok_iff.mpr ⟨List.cons_ne_nil _ _, by simpa using same⟩

/-- Contents of a set are to be published, or it ends the same way whatever registries hold: if the
set is well formed it is refused, unless there are no contents and so no commits. -/
theorem upload_splits (s : ModuleSet) (client : Client σ) (publicRegistry : String)
    (options : PublishOptions) :
    (∃ registry contents, s.Publishes options registry contents) ∨
      ∃ result, s.upload client publicRegistry options = Publishing.given result ∧
        (s.WellFormed → ∀ error, result = .error error → error.isRefusal = true) ∧
        ∀ commits, result = .ok commits →
          commits = [] ∧ Content.select s options = .ok [] := by
  unfold upload
  cases checked : options.check with
  | error error =>
      refine .inr ⟨.error (.options error), rfl, ?_, fun _ done => nomatch done⟩
      rintro - _ ⟨⟩
      rfl
  | ok =>
  cases selected : Content.select s options with
  | error error =>
      refine .inr ⟨.error error, rfl, ?_, fun _ done => nomatch done⟩
      rintro wf _ ⟨⟩
      exact Content.isRefusal_of_select wf selected
  | ok contents =>
  by_cases bare : contents = []
  · subst bare
    refine .inr ⟨.ok [], rfl, ?_, fun commits done => ⟨(Except.ok.inj done).symm, rfl⟩⟩
    exact fun _ _ failed => nomatch failed
  · cases primary : Content.primaryRegistry contents with
    | ok registry =>
        exact .inl ⟨registry, contents, checked, selected, bare, primary⟩
    | error error =>
        refine .inr ⟨.error error, ?_, ?_, fun _ done => nomatch done⟩
        · change (if contents.isEmpty then pure [] else Publishing.uploadContents client
            publicRegistry s options contents) = _
          rw [if_neg (by simpa using bare)]
          unfold Publishing.uploadContents
          rw [primary]
          rfl
        · rintro - _ ⟨⟩
          exact Content.isRefusal_of_primaryRegistry primary

/-- Contents of a set are to be published, or it ends the same way whatever registries hold: with an
error or, if there are none, without commits. -/
theorem upload_cases (s : ModuleSet) (client : Client σ) (publicRegistry : String)
    (options : PublishOptions) :
    (∃ registry contents, s.Publishes options registry contents) ∨
      ∃ result, s.upload client publicRegistry options = Publishing.given result ∧
        ∀ commits, result = .ok commits →
          commits = [] ∧ Content.select s options = .ok [] :=
  (s.upload_splits client publicRegistry options).imp_right
    fun ⟨result, same, _, vain⟩ => ⟨result, same, vain⟩

end ModuleSet

end SchemaModules
