import SchemaModules.Bucket.Memory
import SchemaModules.Proofs.Outcome
import SchemaModules.Publish.Reconcile

/-! # What is read from a registry's answer

The commits that a registry returns are taken by their place and by ids that can be read, and by
nothing else (`readsByIds`). What they say further shows in the field that it is about, and there
only: a digest or a time that is missing or cannot be read is that field's fault.
-/

namespace SchemaModules.Content

variable {content : Content} {contents : List Content} {returned : List UploadedCommit}
  {commits : List Commit}

/-- What is wrong with an id that was returned for a content: it cannot be read, or it is nil. -/
inductive IdFault (content : Content) (id : String) : ResponseFault → Prop where
  | unread {error : IdentifierError} (failed : CommitId.parse id = .error error) :
      IdFault content id (.commitId error)
  | unset (read : CommitId.parse id = .ok CommitId.nil) :
      IdFault content id (.nilCommitId content.fullName)

/-- An id that cannot stand for a commit. -/
def IsUnusable (id : String) : Prop :=
  (∃ error, CommitId.parse id = .error error) ∨ CommitId.parse id = .ok CommitId.nil

/-- What messages call the commit of a content. -/
def context (content : Content) (id : CommitId) : String :=
  "commit " ++ id.text ++ " of " ++ content.fullName.text

/-- What a commit is that was returned for a content: it has the name of the content, and the id,
digest and time that were returned, as far as these can be read. -/
structure ReadAs (content : Content) (returned : UploadedCommit) (commit : Commit) : Prop where
  name : commit.key.fullName = content.fullName
  id : CommitId.parse returned.id = .ok commit.key.commitId
  digest_ok : ∀ digest, commit.key.digest = .ok digest ↔
    ∃ text, returned.digest = some text ∧ Digest.parse text = .ok digest
  digest_error : ∀ error, commit.key.digest = .error error ↔
    (returned.digest = none ∧
      error = .missingField "digest" (content.context commit.key.commitId)) ∨
    ∃ text fault, returned.digest = some text ∧ Digest.parse text = .error fault ∧
      error = .invalidField "digest" (content.context commit.key.commitId) fault.message
  time_ok : ∀ time, commit.createTime = .ok time ↔ returned.createTime = some time
  time_error : ∀ error, commit.createTime = .error error ↔ returned.createTime = none ∧
    error = .missingField "create_time" (content.context commit.key.commitId)

/-! ## One commit -/

theorem not_isUnusable_iff {text : String} :
    ¬ IsUnusable text ↔ ∃ id, CommitId.parse text = .ok id ∧ id ≠ CommitId.nil := by
  unfold IsUnusable
  cases CommitId.parse text <;> simp

theorem exists_idFault_iff (content : Content) {id : String} :
    (∃ fault, IdFault content id fault) ↔ IsUnusable id := by
  constructor
  · rintro ⟨_, ⟨failed⟩ | ⟨read⟩⟩
    · exact .inl ⟨_, failed⟩
    · exact .inr read
  · rintro (⟨error, failed⟩ | read)
    · exact ⟨_, .unread failed⟩
    · exact ⟨_, .unset read⟩

/-- Of an id that is set there is a commit, whatever else is returned with it. -/
theorem commit_of_set {returned : UploadedCommit} {id : CommitId}
    (read : CommitId.parse returned.id = .ok id) (set : id ≠ CommitId.nil) :
    content.commit returned = .ok
      ⟨⟨content.fullName, id, returnedDigest (content.context id) returned.digest, set⟩,
        returnedTime (content.context id) returned.createTime⟩ := by
  unfold Content.commit
  simp only [read, Except.mapError, ModuleKey.make, bind, Except.bind, if_neg set, dif_neg set]
  rfl

theorem commit_of_idFault {returned : UploadedCommit} {fault : ResponseFault}
    (wrong : IdFault content returned.id fault) :
    content.commit returned = .error (.invalidResponse fault) := by
  unfold Content.commit
  cases wrong with
  | unread failed =>
      rw [failed]
      rfl
  | unset read =>
      rw [read]
      rfl

theorem exists_commit_iff {returned : UploadedCommit} :
    (∃ commit, content.commit returned = .ok commit) ↔ ¬ IsUnusable returned.id := by
  constructor
  · rintro ⟨commit, made⟩ unusable
    obtain ⟨fault, wrong⟩ := (exists_idFault_iff content).mpr unusable
    cases made.symm.trans (commit_of_idFault wrong)
  · intro usable
    obtain ⟨id, read, set⟩ := not_isUnusable_iff.mp usable
    exact ⟨_, commit_of_set read set⟩

/-- There is no commit for a content exactly if something is wrong with the id; that the key refuses
the nil id does not come to bear. -/
theorem commit_eq_error_iff {returned : UploadedCommit} {error : PublishError} :
    content.commit returned = .error error ↔
      ∃ fault, IdFault content returned.id fault ∧ error = .invalidResponse fault := by
  constructor
  · intro failed
    by_cases unusable : IsUnusable returned.id
    · obtain ⟨fault, wrong⟩ := (exists_idFault_iff content).mpr unusable
      exact ⟨fault, wrong, Except.error.inj (failed.symm.trans (commit_of_idFault wrong))⟩
    · obtain ⟨commit, made⟩ := exists_commit_iff.mpr unusable
      cases made.symm.trans failed
  · rintro ⟨fault, wrong, rfl⟩
    exact commit_of_idFault wrong

/-- The fields of a commit come from the content and the returned fields of their own. -/
theorem fields_of_commit {returned : UploadedCommit} {commit : Commit}
    (made : content.commit returned = .ok commit) : commit.key.fullName = content.fullName ∧
      CommitId.parse returned.id = .ok commit.key.commitId ∧
      commit.key.digest = returnedDigest (content.context commit.key.commitId) returned.digest ∧
      commit.createTime =
        returnedTime (content.context commit.key.commitId) returned.createTime := by
  obtain ⟨id, read, set⟩ := not_isUnusable_iff.mp (exists_commit_iff.mp ⟨commit, made⟩)
  obtain rfl := Except.ok.inj ((commit_of_set read set).symm.trans made)
  exact ⟨rfl, read, rfl, rfl⟩

theorem returnedDigest_eq_ok_iff {context : String} {given : Option String} {digest : Digest} :
    returnedDigest context given = .ok digest ↔
      ∃ text, given = some text ∧ Digest.parse text = .ok digest := by
  cases given with
  | none => simp [returnedDigest]
  | some text => simp [returnedDigest]

theorem returnedDigest_eq_error_iff {context : String} {given : Option String}
    {error : ModuleError} : returnedDigest context given = .error error ↔
      (given = none ∧ error = .missingField "digest" context) ∨
        ∃ text fault, given = some text ∧ Digest.parse text = .error fault ∧
          error = .invalidField "digest" context fault.message := by
  cases given with
  | none => simp [returnedDigest, eq_comm]
  | some text =>
      rw [returnedDigest, Outcome.mapError_eq_error_iff]
      simp [eq_comm]

theorem readAs_of_commit {returned : UploadedCommit} {commit : Commit}
    (made : content.commit returned = .ok commit) : ReadAs content returned commit := by
  obtain ⟨name, id, digest, time⟩ := fields_of_commit made
  refine ⟨name, id, fun found => ?_, fun error => ?_, fun found => ?_, fun error => ?_⟩
  · rw [digest, returnedDigest_eq_ok_iff]
  · rw [digest, returnedDigest_eq_error_iff]
  · rw [time]
    cases returned.createTime <;> simp [returnedTime]
  · rw [time]
    cases returned.createTime <;> simp [returnedTime, eq_comm]

/-! ## All commits -/

theorem reconcile_of_miscounted (differ : returned.length ≠ contents.length) :
    reconcile contents returned = .error (.commitCount contents.length returned.length) := by
  unfold reconcile
  rw [if_pos differ]
  rfl

theorem reconcile_of_counted (same : returned.length = contents.length) :
    reconcile contents returned =
      (contents.zip returned).mapM fun pair => pair.1.commit pair.2 := by
  unfold reconcile
  rw [if_neg (not_not_intro same)]

/-- Of an answer with as many commits as contents, the first id that is unusable is refused. -/
theorem reconcile_eq_error_iff (same : returned.length = contents.length) {error : PublishError} :
    reconcile contents returned = .error error ↔ ∃ before content id after fault,
      contents.zip (returned.map (·.id)) = before ++ (content, id) :: after ∧
      (∀ pair ∈ before, ¬ IsUnusable pair.2) ∧ IdFault content id fault ∧
      error = .invalidResponse fault := by
  rw [reconcile_of_counted same, Outcome.mapM_eq_error_iff, List.zip_map_right]
  simp only [exists_commit_iff, commit_eq_error_iff]
  constructor
  · rintro ⟨before, ⟨content, commit⟩, after, split, earlier, fault, wrong, rfl⟩
    refine ⟨before.map (Prod.map id (·.id)), content, commit.id, after.map (Prod.map id (·.id)),
      fault, ?_, ?_, wrong, rfl⟩
    · rw [split, List.map_append, List.map_cons]
      rfl
    · exact List.forall_mem_map.mpr earlier
  · rintro ⟨before, content, text, after, fault, split, earlier, wrong, rfl⟩
    obtain ⟨first, rest, whole, rfl, others⟩ := List.map_eq_append_iff.mp split
    obtain ⟨⟨_, commit⟩, last, rfl, equal, -⟩ := List.map_eq_cons_iff.mp others
    obtain ⟨rfl, rfl⟩ := Prod.mk.inj equal
    have usable : ∀ pair ∈ first, ¬ IsUnusable pair.2.id :=
      fun pair member => earlier (pair.1, pair.2.id) (List.mem_map_of_mem member)
    exact ⟨first, _, last, whole, usable, fault, wrong, rfl⟩

theorem commits_of_reconcile (done : reconcile contents returned = .ok commits) :
    returned.length = contents.length ∧
      List.Forall₂ (fun pair commit => pair.1.commit pair.2 = .ok commit) (contents.zip returned)
        commits := by
  by_cases same : returned.length = contents.length
  · rw [reconcile_of_counted same] at done
    exact ⟨same, Outcome.mapM_eq_ok_iff.mp done⟩
  · cases (reconcile_of_miscounted same).symm.trans done

theorem exists_commit_at (done : reconcile contents returned = .ok commits) {i : Nat}
    {one : UploadedCommit} (given : returned[i]? = some one) :
    ∃ content commit, contents[i]? = some content ∧ commits[i]? = some commit ∧
      content.commit one = .ok commit := by
  obtain ⟨same, each⟩ := commits_of_reconcile done
  obtain ⟨short, -⟩ := List.getElem?_eq_some_iff.mp given
  have place : contents[i]? = some contents[i] := List.getElem?_eq_getElem (same ▸ short)
  have here : (contents.zip returned)[i]? = some (contents[i], one) :=
    List.getElem?_zip_eq_some.mpr ⟨place, given⟩
  obtain ⟨commit, found, made⟩ := Outcome.getElem?_of_forall₂ each here
  exact ⟨_, commit, place, found, made⟩

theorem usable_of_reconcile (done : reconcile contents returned = .ok commits) :
    ∀ one ∈ returned, ¬ IsUnusable one.id := by
  intro one member unusable
  obtain ⟨i, given⟩ := List.mem_iff_getElem?.mp member
  obtain ⟨content, commit, -, -, made⟩ := exists_commit_at done given
  exact exists_commit_iff.mp ⟨commit, made⟩ unusable

theorem exists_unusable_of_reconcile (same : returned.length = contents.length)
    {error : PublishError} (failed : reconcile contents returned = .error error) :
    (∃ fault, error = .invalidResponse fault) ∧ ∃ one ∈ returned, IsUnusable one.id := by
  obtain ⟨before, content, id, after, fault, split, -, wrong, equal⟩ :=
    (reconcile_eq_error_iff same).mp failed
  have member : (content, id) ∈ contents.zip (returned.map (·.id)) :=
    split ▸ List.mem_append_right _ List.mem_cons_self
  obtain ⟨one, given, rfl⟩ := List.mem_map.mp (List.of_mem_zip member).2
  exact ⟨⟨fault, equal⟩, one, given, (exists_idFault_iff content).mp ⟨_, wrong⟩⟩

theorem exists_refusal_iff (same : returned.length = contents.length) :
    (∃ fault, reconcile contents returned = .error (.invalidResponse fault)) ↔
      ∃ one ∈ returned, IsUnusable one.id := by
  constructor
  · rintro ⟨fault, failed⟩
    exact (exists_unusable_of_reconcile same failed).2
  · rintro ⟨one, given, unusable⟩
    cases outcome : reconcile contents returned with
    | error error =>
        obtain ⟨⟨fault, rfl⟩, -⟩ := exists_unusable_of_reconcile same outcome
        exact ⟨fault, rfl⟩
    | ok commits => exact absurd unusable (usable_of_reconcile outcome one given)

/-- If all ids can be used there are commits, and each is that of the content at its place. -/
theorem exists_commits_of_usable (same : returned.length = contents.length)
    (usable : ∀ one ∈ returned, ¬ IsUnusable one.id) :
    ∃ commits, reconcile contents returned = .ok commits ∧
      List.Forall₂ (fun pair commit => ReadAs pair.1 pair.2 commit) (contents.zip returned)
        commits := by
  cases outcome : reconcile contents returned with
  | error error =>
      obtain ⟨-, one, given, unusable⟩ := exists_unusable_of_reconcile same outcome
      exact absurd unusable (usable one given)
  | ok commits =>
      exact ⟨commits, rfl, (commits_of_reconcile outcome).2.imp fun _ _ => readAs_of_commit⟩

/-- Of one content and one id, commits have the same fields as far as the same is returned. -/
theorem fields_eq_of_commit {one other : UploadedCommit} {commit otherCommit : Commit}
    (made : content.commit one = .ok commit) (otherMade : content.commit other = .ok otherCommit)
    (sameId : one.id = other.id) : commit.key.fullName = otherCommit.key.fullName ∧
      commit.key.commitId = otherCommit.key.commitId ∧
      (one.digest = other.digest → commit.key.digest = otherCommit.key.digest) ∧
      (one.createTime = other.createTime → commit.createTime = otherCommit.createTime) := by
  obtain ⟨name, id, digest, time⟩ := fields_of_commit made
  obtain ⟨otherName, otherId, otherDigest, otherTime⟩ := fields_of_commit otherMade
  have equalId : commit.key.commitId = otherCommit.key.commitId :=
    Except.ok.inj (id.symm.trans ((congrArg CommitId.parse sameId).trans otherId))
  refine ⟨name.trans otherName.symm, equalId, fun sameDigest => ?_, fun sameTime => ?_⟩
  · rw [digest, otherDigest, equalId, sameDigest]
  · rw [time, otherTime, equalId, sameTime]

/-- Commits are read from an answer by their number and their ids alone. If something is wrong with
these, the answer is refused, and for no other reason. If not, each commit is that of the content at
its place. Whatever else is returned for it shows in the one field that it is about, and whatever is
returned for other contents shows nowhere in it. -/
structure ReadsByIds (contents : List Content) (returned : List UploadedCommit) : Prop where
  miscounted : ∀ expected actual,
    reconcile contents returned = .error (.commitCount expected actual) ↔
      returned.length ≠ contents.length ∧ expected = contents.length ∧ actual = returned.length
  refused : returned.length = contents.length →
    ((∃ fault, reconcile contents returned = .error (.invalidResponse fault)) ↔
      ∃ commit ∈ returned, IsUnusable commit.id)
  first_refused : ∀ fault, reconcile contents returned = .error (.invalidResponse fault) →
    ∃ before content id after,
      contents.zip (returned.map (·.id)) = before ++ (content, id) :: after ∧
      (∀ pair ∈ before, ¬ IsUnusable pair.2) ∧ IdFault content id fault
  read : returned.length = contents.length → (∀ commit ∈ returned, ¬ IsUnusable commit.id) →
    ∃ commits, reconcile contents returned = .ok commits ∧
      List.Forall₂ (fun pair commit => ReadAs pair.1 pair.2 commit) (contents.zip returned) commits
  unreached : ∀ error, reconcile contents returned ≠ .error (.module error)
  separate : ∀ (others : List UploadedCommit) (commits otherCommits : List Commit),
    reconcile contents returned = .ok commits → reconcile contents others = .ok otherCommits →
    ∀ (i : Nat) (one other : UploadedCommit), returned[i]? = some one → others[i]? = some other →
      one.id = other.id → ∃ commit otherCommit : Commit,
        commits[i]? = some commit ∧ otherCommits[i]? = some otherCommit ∧
        commit.key.fullName = otherCommit.key.fullName ∧
        commit.key.commitId = otherCommit.key.commitId ∧
        (one.digest = other.digest → commit.key.digest = otherCommit.key.digest) ∧
        (one.createTime = other.createTime → commit.createTime = otherCommit.createTime)

/-- Every answer to contents is read by its ids. -/
theorem readsByIds (contents : List Content) (returned : List UploadedCommit) :
    ReadsByIds contents returned := by
  refine ⟨?miscounted, exists_refusal_iff, ?first_refused, exists_commits_of_usable, ?unreached,
    ?separate⟩
  case miscounted =>
    intro expected actual
    by_cases same : returned.length = contents.length
    · refine iff_of_false (fun failed => ?_) fun differ => differ.1 same
      obtain ⟨⟨fault, equal⟩, -⟩ := exists_unusable_of_reconcile same failed
      cases equal
    · rw [reconcile_of_miscounted same]
      simp [same, eq_comm]
  case first_refused =>
    intro fault failed
    by_cases same : returned.length = contents.length
    · obtain ⟨before, content, id, after, _, split, earlier, wrong, equal⟩ :=
        (reconcile_eq_error_iff same).mp failed
      cases equal
      exact ⟨before, content, id, after, split, earlier, wrong⟩
    · cases (reconcile_of_miscounted same).symm.trans failed
  case unreached =>
    intro error failed
    by_cases same : returned.length = contents.length
    · obtain ⟨⟨fault, equal⟩, -⟩ := exists_unusable_of_reconcile same failed
      cases equal
    · cases (reconcile_of_miscounted same).symm.trans failed
  case separate =>
    intro others commits otherCommits done otherDone i one other given otherGiven sameId
    obtain ⟨content, commit, place, found, made⟩ := exists_commit_at done given
    obtain ⟨_, otherCommit, otherPlace, otherFound, otherMade⟩ :=
      exists_commit_at otherDone otherGiven
    obtain rfl := Option.some.inj (place.symm.trans otherPlace)
    exact ⟨commit, otherCommit, found, otherFound, fields_eq_of_commit made otherMade sameId⟩

/-- Two commits, of which one lacks the digest, and the other has one that cannot be read and lacks
the time. -/
def undigested : List UploadedCommit :=
  [⟨"00000000000000000000000000000001", "first", none, some 5⟩,
    ⟨"00000000000000000000000000000002", "second", some "md5:0", none⟩]

/-- Digests that cannot be read do not keep commits from being read. -/
theorem reads_by_ids_of_undigested : ∃ (contents : List Content) (one other : Commit),
    reconcile contents undigested = .ok [one, other] ∧ one.createTime = .ok 5 ∧
      (∃ error, one.key.digest = .error error) ∧ (∃ error, other.key.digest = .error error) ∧
      ∃ error, other.createTime = .error error := by
  let name : FullName := ⟨"r.dev", "acme", "a", by decide, by decide, by decide⟩
  let m := Module.edited "proto" MemoryBucket.empty.toBucket (some name) true
  let content : Content := ⟨m, name⟩
  have usable : ∀ commit ∈ undigested, ¬ IsUnusable commit.id := by
    intro commit member
    rw [not_isUnusable_iff]
    rcases List.mem_pair.mp member with rfl | rfl
    · exact ⟨⟨1⟩, by decide +kernel, by decide⟩
    · exact ⟨⟨2⟩, by decide +kernel, by decide⟩
  obtain ⟨_, read, each⟩ := (readsByIds [content, content] undigested).read rfl usable
  obtain ⟨one, _, first, remaining, rfl⟩ := List.forall₂_cons_left_iff.mp each
  obtain ⟨other, _, second, none, rfl⟩ := List.forall₂_cons_left_iff.mp remaining
  obtain rfl := List.forall₂_nil_left_iff.mp none
  exact ⟨_, one, other, read, (first.time_ok 5).mpr rfl,
    ⟨_, (first.digest_error _).mpr (.inl ⟨rfl, rfl⟩)⟩,
    ⟨_, (second.digest_error _).mpr (.inr ⟨_, _, rfl, rfl, rfl⟩)⟩,
    ⟨_, (second.time_error _).mpr ⟨rfl, rfl⟩⟩⟩

end SchemaModules.Content
