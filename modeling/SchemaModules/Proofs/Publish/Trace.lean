import SchemaModules.Bucket.Memory
import SchemaModules.Proofs.Publish.FirstUpload

/-! # What publishing asks of registries

Publishing resolves its contents and then uploads them with one call, all on one registry. A `Course`
is what is called for contents, and with what result; `upload_trace` puts it behind the choice of
contents. An error tells how far publishing came: refusals come before any call, and what keeps an
upload from being sent comes before that.
-/

namespace SchemaModules

/-- A call uploads contents of modules to a registry. -/
def Operation.Uploads (operation : Operation) (registry : String) (modules : List ModuleRef) :
    Prop :=
  (∃ labels depCommitIds, operation = .upload registry modules labels depCommitIds) ∨
    ∃ labels deps, operation = .uploadFederated registry modules labels deps

section

variable {operation : Operation} {registry : String} {modules : List ModuleRef}

theorem Operation.Uploads.registry_eq (uploads : operation.Uploads registry modules) :
    operation.registry = registry := by
  rcases uploads with ⟨_, _, rfl⟩ | ⟨_, _, rfl⟩
  · rfl
  · rfl

theorem Operation.Uploads.isUpload_eq (uploads : operation.Uploads registry modules) :
    operation.isUpload = true := by
  rcases uploads with ⟨_, _, rfl⟩ | ⟨_, _, rfl⟩
  · rfl
  · rfl

end

/-! ## The calls for contents -/

namespace Publishing

open MemoryRegistry (client)

variable {registry : String} {options : PublishOptions} {contents : List Content}
  {r mid last : MemoryRegistry} {resolving uploading : List Operation}

/-- Publishing contents to a registry, from a state to a state: they are resolved, and if that comes
to its end they may be uploaded with one call. Commits have been uploaded, and if something kept an
upload from being sent, then none was. -/
structure Course (registry : String) (options : PublishOptions) (contents : List Content)
    (r last : MemoryRegistry) (resolving uploading : List Operation)
    (result : Except PublishError (List Commit)) : Prop where
  noted : last.operations = r.operations ++ (resolving ++ uploading)
  resolved : ∃ complete mid, Resolving registry options contents r resolving complete mid ∧
    (uploading ≠ [] → complete = true)
  uploaded : uploading = [] ∨
    ∃ upload, uploading = [upload] ∧ upload.Uploads registry (contents.map (·.fullName.ref))
  sent : ∀ commits, result = .ok commits → uploading ≠ []
  unsent : ∀ error, result = .error error → error.isUnsent = true → uploading = []
  unrefused : ∀ error, result = .error error → error.isRefusal = false

/-- A course that ends before the upload. -/
theorem Course.stop {complete : Bool} {error : PublishError}
    (resolved : Resolving registry options contents r resolving complete last)
    (unrefused : error.isRefusal = false) :
    Course registry options contents r last resolving [] (.error error) where
  noted := by rw [List.append_nil, resolved.operations_eq]
  resolved := ⟨complete, last, resolved, fun sent => absurd rfl sent⟩
  uploaded := .inl rfl
  sent _ impossible := nomatch impossible
  unsent _ _ _ := rfl
  unrefused error failed := by
    obtain rfl := Except.error.inj failed
    exact unrefused

/-- A course that comes to the upload can fail only by what the registry answers. -/
theorem Course.send {upload : Operation} {result : Except PublishError (List Commit)}
    (resolved : Resolving registry options contents r resolving true mid)
    (noted : last.operations = mid.operations ++ [upload])
    (uploads : upload.Uploads registry (contents.map (·.fullName.ref)))
    (answered : ∀ error, result = .error error → error.isAnswered = true) :
    Course registry options contents r last resolving [upload] result where
  noted := by rw [noted, resolved.operations_eq, List.append_assoc]
  resolved := ⟨true, mid, resolved, fun _ => rfl⟩
  uploaded := .inr ⟨upload, rfl, uploads⟩
  sent _ _ := List.cons_ne_nil _ _
  unsent error failed unsent := by
    rw [PublishError.not_isUnsent_of_isAnswered (answered error failed)] at unsent
    cases unsent
  unrefused error failed := PublishError.not_isRefusal_of_isAnswered (answered error failed)

/-- All calls of a course are made to its registry. -/
theorem Course.registry_eq {result : Except PublishError (List Commit)}
    (course : Course registry options contents r last resolving uploading result) :
    ∀ operation ∈ resolving ++ uploading, operation.registry = registry := by
  obtain ⟨complete, mid, resolved, -⟩ := course.resolved
  intro operation member
  rcases List.mem_append.mp member with before | after
  · exact (resolved.forms operation before).1
  · rcases course.uploaded with unsent | ⟨upload, one, uploads⟩
    · rw [unsent] at after
      cases after
    · rw [one] at after
      obtain rfl := List.mem_singleton.mp after
      exact uploads.registry_eq

/-- The uploads of a course are the calls that it makes after resolving. -/
theorem Course.countP_isUpload {result : Except PublishError (List Commit)}
    (course : Course registry options contents r last resolving uploading result) :
    (resolving ++ uploading).countP (·.isUpload) = uploading.length := by
  obtain ⟨complete, mid, resolved, -⟩ := course.resolved
  have before : resolving.countP (·.isUpload) = 0 := by
    rw [List.countP_eq_zero]
    intro operation member
    rw [(resolved.forms operation member).2]
    exact Bool.false_ne_true
  rw [List.countP_append, before, Nat.zero_add, List.countP_eq_length]
  intro operation member
  rcases course.uploaded with unsent | ⟨upload, one, uploads⟩
  · rw [unsent] at member
    cases member
  · rw [one] at member
    obtain rfl := List.mem_singleton.mp member
    exact uploads.isUpload_eq

/-- Sending contents notes one call, whatever the registry answers. -/
theorem send_run (registry : String) (uploads : List UploadContent) (deps : List DependencyRef)
    (r : MemoryRegistry) : ∃ upload result last,
      outcome (send client registry uploads deps) r = (result, last) ∧
      last.operations = r.operations ++ [upload] ∧
      upload.Uploads registry (uploads.map (·.ref)) ∧
      ∀ error, result = .error error → error.isAnswered = true := by
  have answered : ∀ (answer : Except RegistryError (List UploadedCommit)) (error : PublishError),
      answer.mapError .registry = .error error → error.isAnswered = true := by
    intro answer error failed
    obtain ⟨_, -, rfl⟩ := Outcome.mapError_eq_error_iff.mp failed
    rfl
  unfold send
  cases federated : Content.isFederated registry deps with
  | true =>
      have noted := MemoryRegistry.operations_uploading
        (.uploadFederated registry (uploads.map (·.ref)) (uploads.map (·.labels)) deps) uploads r
      exact ⟨_, _, _, rfl, noted, .inr ⟨_, _, rfl⟩, answered _⟩
  | false =>
      have noted := MemoryRegistry.operations_uploading (.upload registry (uploads.map (·.ref))
        (uploads.map (·.labels)) (deps.map (·.commitId))) uploads r
      exact ⟨_, _, _, rfl, noted, .inl ⟨_, _, rfl⟩, answered _⟩

theorem uploadContents_run (publicRegistry : String) (s : ModuleSet)
    (primary : Content.primaryRegistry contents = .ok registry) (r : MemoryRegistry) :
    ∃ result last resolving uploading,
      outcome (uploadContents client publicRegistry s options contents) r = (result, last) ∧
      Course registry options contents r last resolving uploading result := by
  unfold uploadContents
  rw [primary, outcome_ok_bind]
  obtain ⟨resolving, complete, mid, found, resolves, resolved, stopped, answered⟩ :=
    @resolve_run registry options contents r
  cases found with
  | error error =>
      exact ⟨_, mid, resolving, [], outcome_bind_of_error resolves, .stop resolved
        (PublishError.not_isRefusal_of_isAnswered (answered error rfl))⟩
  | ok modules =>
  have complete : complete = true := by
    cases complete with
    | true => rfl
    | false =>
        obtain ⟨_, impossible⟩ := stopped rfl
        cases impossible
  subst complete
  rw [outcome_bind_of_ok resolves]
  have halts : ∀ error : PublishError, error.isUnsent = true →
      Course registry options contents r mid resolving [] (.error error) := fun _ unsent =>
    .stop resolved (PublishError.not_isRefusal_of_isUnsent unsent)
  cases labelled : Content.labels modules options with
  | error error =>
      exact ⟨_, mid, resolving, [], outcome_error_bind _ _,
        halts error (Content.isUnsent_of_labels labelled)⟩
  | ok labels =>
  rw [outcome_ok_bind]
  cases referred : Content.dependencyRefs s contents with
  | error error =>
      exact ⟨_, mid, resolving, [], outcome_error_bind _ _,
        halts error (Content.isUnsent_of_dependencyRefs referred)⟩
  | ok deps =>
  rw [outcome_ok_bind]
  cases federable : Content.checkFederation publicRegistry registry deps with
  | error error =>
      exact ⟨_, mid, resolving, [], outcome_error_bind _ _,
        halts error (Content.isUnsent_of_checkFederation federable)⟩
  | ok =>
  rw [outcome_ok_bind]
  cases made : contents.mapM (Content.toUpload labels options) with
  | error error =>
      exact ⟨_, mid, resolving, [], outcome_error_bind _ _,
        halts error (Content.isUnsent_of_toUpload made)⟩
  | ok uploads =>
  rw [outcome_ok_bind]
  obtain ⟨upload, answer, last, sent, noted, forms, fails⟩ := send_run registry uploads deps mid
  rw [Content.refs_of_toUpload made] at forms
  cases answer with
  | error error =>
      refine ⟨_, last, resolving, [upload], outcome_bind_of_error sent, ?_⟩
      exact .send resolved noted forms fun _ failed => Except.error.inj failed ▸ fails error rfl
  | ok returned =>
      refine ⟨_, last, resolving, [upload], outcome_bind_of_ok sent, ?_⟩
      exact .send resolved noted forms fun _ failed => Content.isAnswered_of_reconcile failed

end Publishing

/-- Publishing a set comes to nothing if it is refused or no content is left. -/
def ModuleSet.Idle (s : ModuleSet) (options : PublishOptions)
    (result : Except PublishError (List Commit)) : Prop :=
  (∃ error, result = .error error ∧ error.isRefusal = true) ∨ Content.select s options = .ok []

namespace ModuleSet

variable {s : ModuleSet} {options : PublishOptions} {registry : String} {contents : List Content}
  {r last : MemoryRegistry} {resolving uploading : List Operation}
  {result : Except PublishError (List Commit)}

/-- Contents that are to be published take their course. -/
theorem Publishes.upload_course (publishes : s.Publishes options registry contents)
    (publicRegistry : String) (r : MemoryRegistry) : ∃ result last resolving uploading,
      Publishing.outcome (s.upload MemoryRegistry.client publicRegistry options) r =
        (result, last) ∧
      Publishing.Course registry options contents r last resolving uploading result := by
  rw [publishes.upload_eq, ← Publishing.uploadContents_eq publishes.primary]
  exact Publishing.uploadContents_run publicRegistry s publishes.primary r

/-- A course does not come to nothing. -/
theorem Publishes.not_idle (publishes : s.Publishes options registry contents)
    (course : Publishing.Course registry options contents r last resolving uploading result) :
    ¬ s.Idle options result := by
  rintro (⟨error, failed, refusal⟩ | nothing)
  · rw [course.unrefused error failed] at refusal
    cases refusal
  · exact publishes.filled (Except.ok.inj (publishes.selected.symm.trans nothing))

end ModuleSet

/-- What is called when a set is published, from a state to a state, and with what result. There are
no calls if publishing comes to nothing. Else they are made to the one registry of the contents,
which are the named ones of the local modules in the order of the set: first the calls that resolve
them, and then, if these came to their end, at most one that uploads all of them. -/
structure ModuleSet.Trace (s : ModuleSet) (options : PublishOptions) (r last : MemoryRegistry)
    (result : Except PublishError (List Commit)) (calls : List Operation) : Prop where
  noted : last.operations = r.operations ++ calls
  silent : s.Idle options result → calls = []
  course : ¬ s.Idle options result →
    ∃ contents registry resolving uploading complete mid,
      Content.select s options = .ok contents ∧
      contents.map (·.module) = s.localContent.filter (·.fullName.isSome) ∧
      (∀ content ∈ contents, content.module.fullName = some content.fullName ∧
        content.fullName.registry = registry) ∧
      calls = resolving ++ uploading ∧
      (∀ call ∈ calls, call.registry = registry) ∧
      Publishing.Resolving registry options contents r resolving complete mid ∧
      (∀ call ∈ resolving, call.isUpload = false) ∧
      (uploading = [] ∨ complete = true ∧ ∃ upload, uploading = [upload] ∧
        upload.Uploads registry (contents.map (·.fullName.ref)))
  sent : ∀ commits, result = .ok commits → commits ≠ [] → calls.countP (·.isUpload) = 1
  unsent : ∀ error, result = .error error → error.isUnsent = true →
    calls.countP (·.isUpload) = 0

/-- The trace of a course. -/
theorem ModuleSet.Publishes.trace {s : ModuleSet} {options : PublishOptions} {registry : String}
    {contents : List Content} {r last : MemoryRegistry} {resolving uploading : List Operation}
    {result : Except PublishError (List Commit)}
    (publishes : s.Publishes options registry contents)
    (course : Publishing.Course registry options contents r last resolving uploading result) :
    s.Trace options r last result (resolving ++ uploading) := by
  refine ⟨course.noted, fun idle => absurd idle (publishes.not_idle course), fun _ => ?_, ?_, ?_⟩
  · obtain ⟨modules, names⟩ :=
      Content.modules_of_ofModules (Content.ofModules_of_select publishes.selected)
    obtain ⟨complete, mid, resolved, finished⟩ := course.resolved
    refine ⟨contents, registry, resolving, uploading, complete, mid, publishes.selected, modules,
      fun content member => ⟨names content member,
        Content.registry_of_primaryRegistry publishes.primary content member⟩,
      rfl, course.registry_eq, resolved, fun call member => (resolved.forms call member).2, ?_⟩
    rcases course.uploaded with unsent | ⟨upload, rfl, uploads⟩
    · exact .inl unsent
    · exact .inr ⟨finished (List.cons_ne_nil _ _), upload, rfl, uploads⟩
  · intro commits done _
    rw [course.countP_isUpload]
    rcases course.uploaded with unsent | ⟨upload, rfl, -⟩
    · exact absurd unsent (course.sent commits done)
    · rfl
  · intro error failed unsent
    rw [course.countP_isUpload, course.unsent error failed unsent]
    rfl

/-- Publishing a set that was built calls registries in this way, whatever they hold and however they
fail: from every state it comes to a result by such a trace. It comes to nothing exactly if there are
no contents to be published on one registry by options that are in order. -/
theorem ModuleSet.upload_trace {s : ModuleSet} (built : s.IsBuilt) (publicRegistry : String)
    (options : PublishOptions) (r : MemoryRegistry) :
    ∃ result last calls,
      Publishing.outcome (s.upload MemoryRegistry.client publicRegistry options) r = (result, last) ∧
      s.Trace options r last result calls ∧
      (s.Idle options result ↔ ∀ registry contents, ¬ s.Publishes options registry contents) := by
  rcases s.upload_splits MemoryRegistry.client publicRegistry options with
    ⟨registry, contents, publishes⟩ | ⟨result, same, refused, vain⟩
  · obtain ⟨result, last, resolving, uploading, run, course⟩ :=
      publishes.upload_course publicRegistry r
    exact ⟨result, last, resolving ++ uploading, run, publishes.trace course,
      fun idle => absurd idle (publishes.not_idle course),
      fun none => absurd publishes (none registry contents)⟩
  · have idle : s.Idle options result := by
      cases result with
      | error error => exact .inl ⟨error, rfl, refused built.wellFormed error rfl⟩
      | ok commits => exact .inr (vain commits rfl).2
    have run : Publishing.outcome (s.upload MemoryRegistry.client publicRegistry options) r =
        (result, r) := by
      rw [same, Publishing.outcome_given]
    refine ⟨result, r, [], run, ?_, fun _ registry contents publishes => ?_, fun _ => idle⟩
    · exact {
        noted := (List.append_nil _).symm
        silent := fun _ => rfl
        course := fun busy => absurd idle busy
        sent := fun commits done filled => absurd (vain commits done).1 filled
        unsent := fun _ _ _ => rfl }
    · obtain ⟨_, _, resolving, uploading, again, course⟩ :=
        publishes.upload_course publicRegistry r
      obtain ⟨rfl, rfl⟩ := Prod.mk.inj (run.symm.trans again)
      exact publishes.not_idle course idle

/-- A module and the one that it depends on, each with a file, are created on registries that keep
nothing, one after the other, and then uploaded with one call. -/
theorem ModuleSet.upload_trace_of_two_modules : ∃ (s : ModuleSet) (commits : List Commit)
    (last : MemoryRegistry), s.IsBuilt ∧
      Publishing.outcome (s.upload MemoryRegistry.client "buf.build" { createMissing := true })
        .empty = (.ok commits, last) ∧
      commits.length = 2 ∧
      s.Trace { createMissing := true } .empty last (.ok commits)
        [.createModules "r.dev" [⟨"acme", "a"⟩], .createModules "r.dev" [⟨"acme", "b"⟩],
          .upload "r.dev" [⟨"acme", "a"⟩, ⟨"acme", "b"⟩] [[], []] []] := by
  let name : FullName := ⟨"r.dev", "acme", "a", by decide, by decide, by decide⟩
  let depName : FullName := ⟨"r.dev", "acme", "b", by decide, by decide, by decide⟩
  let m := Module.edited "a" (MemoryBucket.empty.insertValid "a.proto" [1]).toBucket (some name) true
  let dep := Module.edited "b" (MemoryBucket.empty.insertValid "b.proto" [2]).toBucket
    (some depName) false
  have apart : m.opaqueId ≠ dep.opaqueId := by decide
  obtain ⟨commits, last, run, counted, -, noted⟩ := upload_first_pair apart
    (rfl : m.fullName = some name) (rfl : dep.fullName = some depName) rfl rfl rfl rfl rfl
    (rfl : m.files = .ok [("a.proto", [1])]) (rfl : dep.files = .ok [("b.proto", [2])]) "buf.build"
  obtain ⟨_, _, calls, again, trace, -⟩ := upload_trace (isBuilt_pair apart) "buf.build"
    { createMissing := true } .empty
  obtain ⟨rfl, rfl⟩ := Prod.mk.inj (run.symm.trans again)
  obtain rfl : last.operations = calls := trace.noted
  rw [noted] at trace
  exact ⟨pair m dep, commits, last, isBuilt_pair apart, run, counted, trace⟩

end SchemaModules
