import Mathlib.Order.Nat
import SchemaModules.Proofs.Publish.Plan
import SchemaModules.Proofs.Registry.Numbering

/-! # What an upload stores and what is made of its answer

Contents are published one after another under the ids that follow (`publishAll_run`), and the
answer to that is read back as one commit for each content, unless things are left out of it.
-/

namespace SchemaModules

namespace Store

variable {registry : String} {s : Store}

/-- What is answered for content that was published under a number. -/
def answer (content : UploadContent) (module : RegistryModule) (n : Nat) : UploadedCommit :=
  ⟨idText n, module.id, some (Digest.ofFiles content.files).text, some (commitTime n)⟩

/-- What is stored for content that was published under a number. -/
def stored (registry : String) (content : UploadContent) (module : RegistryModule) (n : Nat) :
    StoredCommit :=
  ⟨registry, module.id, Digest.ofFiles content.files, commitTime n⟩

theorem nextId_publish (s : Store) (registry : String) (content : UploadContent)
    (module : RegistryModule) : (s.publish registry content module).2.nextId = s.nextId + 1 := by
  rw [publish_snd, setLabels_eq]
  rfl

theorem commits_publish (s : Store) (registry : String) (content : UploadContent)
    (module : RegistryModule) :
    (s.publish registry content module).2.commits =
      s.commits.insert (idText s.nextId) (stored registry content module s.nextId) := by
  rw [publish_snd, setLabels_eq]
  rfl

theorem publishAll_cons (content : UploadContent) (module : RegistryModule)
    (rest : List (UploadContent × RegistryModule)) (s : Store) :
    publishAll registry ((content, module) :: rest) s =
      (answer content module s.nextId ::
          (publishAll registry rest (s.publish registry content module).2).1,
        (publishAll registry rest (s.publish registry content module).2).2) := rfl

theorem nextId_publishAll (pairs : List (UploadContent × RegistryModule)) (s : Store) :
    (publishAll registry pairs s).2.nextId = s.nextId + pairs.length := by
  induction pairs generalizing s with
  | nil => rfl
  | cons pair rest ih =>
      rw [publishAll_cons, ih, nextId_publish, List.length_cons, Nat.add_assoc, Nat.add_comm 1]

theorem length_publishAll (pairs : List (UploadContent × RegistryModule)) (s : Store) :
    (publishAll registry pairs s).1.length = pairs.length := by
  induction pairs generalizing s with
  | nil => rfl
  | cons pair rest ih => rw [publishAll_cons, List.length_cons, ih, List.length_cons]

theorem modules_publishAll (pairs : List (UploadContent × RegistryModule)) (s : Store) :
    (publishAll registry pairs s).2.modules = s.modules := by
  induction pairs generalizing s with
  | nil => rfl
  | cons pair rest ih => rw [publishAll_cons, ih, modules_publish]

/-- What was published before stays when more is published. -/
theorem commit_of_publishAll {pairs : List (UploadContent × RegistryModule)} {n : Nat}
    (earlier : n < s.nextId) (room : (publishAll registry pairs s).2.InRange) :
    (publishAll registry pairs s).2.commits.find? (idText n) = s.commits.find? (idText n) := by
  induction pairs generalizing s with
  | nil => rfl
  | cons pair rest ih =>
      have later : s.nextId < 2 ^ 128 := by
        apply Nat.lt_of_le_of_lt _ room
        rw [nextId_publishAll]
        exact Nat.le_add_right _ _
      have other : idText n ≠ idText s.nextId := fun same =>
        absurd (idText_injective (earlier.trans later) later same) earlier.ne
      rw [publishAll_cons] at room ⊢
      rw [ih (by rw [nextId_publish]; exact earlier.trans (Nat.lt_succ_self _)) room,
        commits_publish, SortedMap.find?_insert, if_neg other]

/-- Contents are published for the modules that their store has. -/
theorem upload_eq_ok_iff {contents : List UploadContent} {returned : List UploadedCommit}
    {t : Store} :
    s.upload registry contents = .ok (returned, t) ↔
      ∃ modules, s.getModules registry (contents.map (·.ref)) = .ok modules ∧
        publishAll registry (contents.zip modules) s = (returned, t) := by
  simp only [upload, Outcome.bind_eq_ok_iff, Outcome.pure_eq_ok_iff]

/-- An upload leaves the modules as they are. -/
theorem modules_of_upload {contents : List UploadContent} {returned : List UploadedCommit}
    {t : Store} (uploaded : s.upload registry contents = .ok (returned, t)) :
    t.modules = s.modules := by
  obtain ⟨modules, -, published⟩ := upload_eq_ok_iff.mp uploaded
  obtain rfl : (publishAll registry (contents.zip modules) s).2 = t := congrArg Prod.snd published
  exact modules_publishAll _ s

end Store

namespace Content

open Store (idText commitId answer stored commitTime)

variable {registry : String} {content : Content}

/-- A commit is that of a content whose upload was published under a number. -/
structure CommittedAs (content : Content) (commit : Commit) (upload : UploadContent) (n : Nat) :
    Prop where
  name : commit.key.fullName = content.fullName
  id : commit.key.commitId = commitId n
  digest : commit.key.digest = .ok (Digest.ofFiles upload.files)
  time : commit.createTime = .ok (commitTime n)

/-- What is answered for content that was published is read back as its commit. -/
theorem commit_answer (content : Content) (upload : UploadContent) (module : RegistryModule)
    {n : Nat} (positive : 0 < n) (room : n < 2 ^ 128) : ∃ commit,
      content.commit (answer upload module n) = .ok commit ∧
        content.CommittedAs commit upload n := by
  have parsed : CommitId.parse (answer upload module n).id = .ok (commitId n) := by
    show CommitId.parse (idText n) = _
    rw [← Store.text_commitId room]
    exact CommitId.parse_text _
  have digest : ∀ context, returnedDigest context (answer upload module n).digest =
      .ok (Digest.ofFiles upload.files) := by
    simp [answer, returnedDigest, Digest.parse_text, Except.mapError]
  obtain ⟨commit, made⟩ : ∃ commit, content.commit (answer upload module n) = .ok commit :=
    ⟨_, commit_of_set parsed (Store.commitId_ne_nil positive room)⟩
  obtain ⟨name, id, returned, time⟩ := fields_of_commit made
  exact ⟨commit, made, name, Except.ok.inj (id.symm.trans parsed), returned.trans (digest _), time⟩

/-- Contents are published under the numbers from the next one on, and the answers are read back as
their commits in this order. -/
theorem publishAll_run {P : Content → UploadContent × RegistryModule → Prop}
    {contents : List Content} {pairs : List (UploadContent × RegistryModule)} {s : Store}
    (each : List.Forall₂ P contents pairs) (positive : 0 < s.nextId)
    (room : (Store.publishAll registry pairs s).2.InRange) : ∃ commits,
      ((contents.zip (Store.publishAll registry pairs s).1).mapM fun pair => pair.1.commit pair.2) =
        .ok commits ∧
      List.Forall₂ (fun content commit => ∃ pair n, P content pair ∧
        s.nextId ≤ n ∧ n < 2 ^ 128 ∧ content.CommittedAs commit pair.1 n ∧
        (Store.publishAll registry pairs s).2.commits.find? (idText n) =
          some (stored registry pair.1 pair.2 n)) contents commits ∧
      commits.Pairwise fun a b => a.key.commitId.value.toNat < b.key.commitId.value.toNat := by
  -- The counter moves on with each content, so the numbers of those that follow are larger.
  induction each generalizing s with
  | nil => exact ⟨[], rfl, .nil, .nil⟩
  | @cons content pair contents pairs holds each ih =>
      obtain ⟨upload, module⟩ := pair
      rw [Store.publishAll_cons] at room ⊢
      have following : (s.publish registry upload module).2.nextId = s.nextId + 1 :=
        Store.nextId_publish s registry upload module
      have small : s.nextId < 2 ^ 128 := by
        have bounded := room
        rw [Store.InRange, Store.nextId_publishAll, following] at bounded
        omega
      obtain ⟨commit, read, committed⟩ := commit_answer content upload module positive small
      obtain ⟨commits, reads, all, ordered⟩ := ih (following ▸ Nat.succ_pos _) room
      refine ⟨commit :: commits, ?_, .cons ?_ ?_, List.pairwise_cons.mpr ⟨?_, ordered⟩⟩
      · rw [List.zip_cons_cons, List.mapM_cons]
        exact Outcome.bind_eq_ok_iff.mpr ⟨commit, read,
          Outcome.bind_eq_ok_iff.mpr ⟨commits, reads, rfl⟩⟩
      · refine ⟨(upload, module), s.nextId, holds, le_rfl, small, committed, ?_⟩
        rw [Store.commit_of_publishAll (following ▸ Nat.lt_succ_self _) room, Store.commits_publish,
          SortedMap.find?_insert, if_pos rfl]
      · apply all.imp
        rintro other commit ⟨pair, n, kind, later, rest⟩
        exact ⟨pair, n, kind, by omega, rest⟩
      · intro other member
        obtain ⟨_, -, _, n, -, later, bounded, published, -⟩ :=
          Outcome.exists_of_forall₂ all member
        rw [committed.id, published.id, Store.value_commitId small, Store.value_commitId bounded]
        omega

/-- What a store answers to an upload of contents is read back as their commits. -/
theorem reconcile_upload {contents : List Content} {labels : List String}
    {options : PublishOptions} {uploads : List UploadContent} {returned : List UploadedCommit}
    {s t : Store} (made : contents.mapM (toUpload labels options) = .ok uploads)
    (uploaded : s.upload registry uploads = .ok (returned, t)) (positive : 0 < s.nextId)
    (room : t.InRange) : ∃ commits, reconcile contents returned = .ok commits ∧
      List.Forall₂ (fun content commit => ∃ upload module n,
        toUpload labels options content = .ok upload ∧
        s.findModule registry content.fullName.ref = .ok module ∧
        s.nextId ≤ n ∧ n < 2 ^ 128 ∧ content.CommittedAs commit upload n ∧
        t.commits.find? (idText n) = some (stored registry upload module n)) contents commits ∧
      commits.Pairwise fun a b => a.key.commitId.value.toNat < b.key.commitId.value.toNat := by
  obtain ⟨modules, found, published⟩ := Store.upload_eq_ok_iff.mp uploaded
  rw [refs_of_toUpload made] at found
  have files := Outcome.mapM_eq_ok_iff.mp made
  have places := List.forall₂_map_left_iff.mp (Outcome.mapM_eq_ok_iff.mp found)
  have pairs := Outcome.forall₂_zip files places
  obtain rfl : (Store.publishAll registry (uploads.zip modules) s).1 = returned :=
    congrArg Prod.fst published
  obtain rfl : (Store.publishAll registry (uploads.zip modules) s).2 = t :=
    congrArg Prod.snd published
  obtain ⟨commits, read, all, ordered⟩ := publishAll_run pairs positive room
  have sized : (Store.publishAll registry (uploads.zip modules) s).1.length = contents.length := by
    rw [Store.length_publishAll, pairs.length_eq]
  refine ⟨commits, ?_, ?_, ordered⟩
  · unfold reconcile
    rw [if_neg (by simpa using sized)]
    exact read
  · apply all.imp
    rintro content commit ⟨⟨upload, module⟩, n, ⟨file, place⟩, rest⟩
    exact ⟨upload, module, n, file, place, rest⟩

end Content

/-- Uploading is answered with what the store makes of it, or it fails and leaves the store as it
is. -/
theorem MemoryRegistry.uploading_cases (operation : Operation) (contents : List UploadContent)
    {r : MemoryRegistry} (faithful : r.omissions = []) : ∃ answer t,
      uploading operation contents r =
        (answer, { r with store := t, operations := r.operations ++ [operation] }) ∧
      ((∃ returned, r.store.upload operation.registry contents = .ok (returned, t) ∧
          answer = .ok returned) ∨
        t = r.store ∧ ∃ error, answer = .error error) := by
  obtain ⟨store, failure, omissions, operations⟩ := r
  obtain rfl : omissions = [] := faithful
  unfold uploading
  cases failing : failureOf? ⟨store, failure, [], operations⟩ operation.method with
  | some error =>
      rw [perform_of_failure operation failing]
      exact ⟨.error error, store, rfl, .inr ⟨rfl, error, rfl⟩⟩
  | none =>
      rw [perform_of_success operation failing]
      unfold changing
      cases uploaded : store.upload operation.registry contents with
      | error error => exact ⟨.error error, store, rfl, .inr ⟨rfl, error, rfl⟩⟩
      | ok result => exact ⟨.ok result.1, result.2, rfl, .inl ⟨result.1, rfl, rfl⟩⟩

namespace Publishing

open MemoryRegistry (client)

variable {registry : String} {r : MemoryRegistry}

/-- The call that uploads contents with what they depend on. -/
def sending (registry : String) (uploads : List UploadContent) (deps : List DependencyRef) :
    Operation :=
  if Content.isFederated registry deps then
    .uploadFederated registry (uploads.map (·.ref)) (uploads.map (·.labels)) deps
  else
    .upload registry (uploads.map (·.ref)) (uploads.map (·.labels)) (deps.map (·.commitId))

theorem registry_sending (registry : String) (uploads : List UploadContent)
    (deps : List DependencyRef) : (sending registry uploads deps).registry = registry := by
  unfold sending
  split <;> rfl

theorem send_eq (registry : String) (uploads : List UploadContent) (deps : List DependencyRef) :
    send client registry uploads deps =
      call (MemoryRegistry.uploading (sending registry uploads deps) uploads) := by
  unfold send sending
  split <;> rfl

/-- Delivering contents is one call. It ends with what can be read out of the store's answer, or it
fails and leaves the store as it is. -/
theorem deliver_cases (registry : String) (contents : List Content)
    (prepared : List UploadContent × List DependencyRef) (faithful : r.omissions = []) :
    ∃ result t,
      outcome (deliver client registry contents prepared) r =
        (result, { r with
          store := t
          operations := r.operations ++ [sending registry prepared.1 prepared.2] }) ∧
      ((∃ returned, r.store.upload registry prepared.1 = .ok (returned, t) ∧
          result = Content.reconcile contents returned) ∨
        t = r.store ∧ ∃ error, result = .error error) := by
  obtain ⟨answer, t, run, ends⟩ := MemoryRegistry.uploading_cases
    (sending registry prepared.1 prepared.2) prepared.1 faithful
  rw [registry_sending] at ends
  have called := outcome_call
    (MemoryRegistry.uploading (sending registry prepared.1 prepared.2) prepared.1) r
  rw [run] at called
  unfold deliver
  rw [send_eq]
  rcases ends with ⟨returned, uploaded, rfl⟩ | ⟨rfl, error, rfl⟩
  · exact ⟨_, t, outcome_bind_of_ok called, .inl ⟨returned, uploaded, rfl⟩⟩
  · exact ⟨_, r.store, outcome_bind_of_error called, .inr ⟨rfl, .registry error, rfl⟩⟩

end Publishing

end SchemaModules
