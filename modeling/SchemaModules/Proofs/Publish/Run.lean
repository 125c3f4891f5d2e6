import SchemaModules.Proofs.Publish.Delivery
import SchemaModules.Proofs.Publish.Settling

/-! # What publishing comes to

Publishing either uploads all contents to the store in which they were resolved and ends with what is
read out of its answer, or it ends with an error before that and has done nothing but resolve some of
them (`publish_cases`).
-/

namespace SchemaModules.Publishing

open MemoryRegistry (client)

variable {publicRegistry registry : String} {s : ModuleSet} {options : PublishOptions}
  {contents : List Content} {r last : MemoryRegistry}

/-- Publishing is a course of resolving, which may stop early, of an upload, which the store may
refuse, and of reading the answer. -/
theorem publish_cases {result : Except PublishError (List Commit)}
    (run : outcome (publish client publicRegistry s options registry contents) r = (result, last))
    (faithful : r.omissions = []) :
    (∃ modules labels uploads returned,
      resolution registry contents
        (r.store.settle registry options (contents.map (·.fullName))) = .ok modules ∧
      Content.labels modules options = .ok labels ∧
      contents.mapM (Content.toUpload labels options) = .ok uploads ∧
      (r.store.settle registry options (contents.map (·.fullName))).upload registry uploads =
        .ok (returned, last.store) ∧
      Content.reconcile contents returned = result) ∨
    (∃ error, result = .error error) ∧ ∃ done operations, done <+: contents ∧ last = { r with
      store := r.store.settle registry options (done.map (·.fullName))
      operations := operations } := by
  obtain ⟨found, done, noted, resolved, before, ends⟩ :=
    resolve_settles registry options contents r
  unfold publish at run
  cases found with
  | error error =>
      rw [outcome_bind_of_error resolved] at run
      obtain ⟨rfl, rfl⟩ := Prod.mk.inj run
      exact .inr ⟨⟨error, rfl⟩, done, noted, before, rfl⟩
  | ok modules =>
  rw [outcome_bind_of_ok resolved] at run
  obtain ⟨rfl, settled⟩ := ends.resolve_right fun ⟨_, error, failed⟩ => nomatch failed
  cases prepared : prepare publicRegistry s options registry done modules with
  | error error =>
      rw [prepared, outcome_error_bind] at run
      obtain ⟨rfl, rfl⟩ := Prod.mk.inj run
      exact .inr ⟨⟨error, rfl⟩, done, noted, before, rfl⟩
  | ok parts =>
  obtain ⟨uploads, deps⟩ := parts
  rw [prepared, outcome_ok_bind] at run
  obtain ⟨labels, labelled, -, -, made⟩ := prepare_eq_ok_iff.mp prepared
  obtain ⟨answer, t, delivered, ends⟩ := deliver_cases (r := { r with
    store := r.store.settle registry options (done.map (·.fullName))
    operations := noted }) registry done (uploads, deps) faithful
  rw [delivered] at run
  obtain ⟨rfl, rfl⟩ := Prod.mk.inj run
  rcases ends with ⟨returned, uploaded, rfl⟩ | ⟨rfl, failed⟩
  · exact .inl ⟨modules, labels, uploads, returned, settled.symm, labelled, made, uploaded, rfl⟩
  · exact .inr ⟨failed, done, _, before, rfl⟩

/-- If publishing succeeds, contents were resolved and labelled, what was made of them was uploaded
to the store that they were resolved in, and the commits were read out of its answer. -/
theorem parts_of_publish {commits : List Commit}
    (done : outcome (publish client publicRegistry s options registry contents) r =
      (.ok commits, last)) (faithful : r.omissions = []) :
    ∃ modules labels uploads returned,
      resolution registry contents
        (r.store.settle registry options (contents.map (·.fullName))) = .ok modules ∧
      Content.labels modules options = .ok labels ∧
      contents.mapM (Content.toUpload labels options) = .ok uploads ∧
      (r.store.settle registry options (contents.map (·.fullName))).upload registry uploads =
        .ok (returned, last.store) ∧
      Content.reconcile contents returned = .ok commits :=
  (publish_cases done faithful).resolve_right fun ⟨⟨_, failed⟩, _⟩ => nomatch failed

/-! ## Publishing where nothing fails -/

/-- What the store answers to an upload is the answer, if no failure strikes and nothing is left
out. -/
theorem outcome_send {uploads : List UploadContent} {deps : List DependencyRef}
    {returned : List UploadedCommit} {t : Store} (faithful : r.omissions = [])
    (working : r.failureOf? (sending registry uploads deps).method = none)
    (uploaded : r.store.upload registry uploads = .ok (returned, t)) :
    outcome (send client registry uploads deps) r = (.ok returned, { r with
      store := t
      operations := r.operations ++ [sending registry uploads deps] }) := by
  rw [send_eq, outcome_call]
  unfold MemoryRegistry.uploading
  rw [MemoryRegistry.perform_of_success _ working, registry_sending, faithful]
  simp only [MemoryRegistry.changing]
  rw [uploaded]
  rfl

/-- Publishing comes to what is read out of the answer, if what was prepared is uploaded. -/
theorem outcome_publish {modules : List RegistryModule} {mid : MemoryRegistry}
    {uploads : List UploadContent} {deps : List DependencyRef} {returned : List UploadedCommit}
    {t : Store}
    (resolved : outcome (resolve client registry contents options) r = (.ok modules, mid))
    (prepared : prepare publicRegistry s options registry contents modules = .ok (uploads, deps))
    (faithful : mid.omissions = [])
    (working : mid.failureOf? (sending registry uploads deps).method = none)
    (uploaded : mid.store.upload registry uploads = .ok (returned, t)) :
    outcome (publish client publicRegistry s options registry contents) r =
      (Content.reconcile contents returned, { mid with
        store := t
        operations := mid.operations ++ [sending registry uploads deps] }) := by
  unfold publish deliver
  rw [outcome_bind_of_ok resolved, prepared, outcome_ok_bind,
    outcome_bind_of_ok (outcome_send faithful working uploaded), outcome_given]

end SchemaModules.Publishing
