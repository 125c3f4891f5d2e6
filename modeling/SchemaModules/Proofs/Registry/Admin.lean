import SchemaModules.Proofs.Registry.Failure
import SchemaModules.Proofs.Registry.Reference

/-! # What administration answers

On registries that are not told to fail, an answer is the thing that a text refers to, or says in
the words of the text that something is not found. For modules, labels and organizations that are
looked up, it is then not there; for a label that is to be moved, it may also be the commit that
the module has not (`Admin.notFound_iff_lacks`). Labels can be looked up if they have no colon
(`Admin.labelText_addresses_iff`).
-/

namespace SchemaModules.Admin

open MemoryRegistry

variable {r : MemoryRegistry} {s : String} {n : FullName} {ref : LabelRef}

/-! ## Answers -/

theorem setDeprecated_answer (working : r.failure = none) (parsed : parseModule s = .ok n)
    (deprecated : Bool) : (setDeprecated adminClient s deprecated r).1 =
      match r.store.modules.find? (n.ref.on n.registry) with
      | some module => .ok { module with state := if deprecated then .deprecated else .active }
      | none => .error (.moduleNotFound s) := by
  simp only [setDeprecated, parsed, adminClient,
    perform_of_success _ (failureOf?_eq_none working _), changing, Store.setModuleState,
    Store.findModule]
  cases r.store.modules.find? (n.ref.on n.registry) <;> rfl

theorem deleteOrganization_answer {registry name : String} (working : r.failure = none)
    (parsed : parseOrganization s = .ok (registry, name)) :
    (deleteOrganization adminClient s r).1 =
      match r.store.organizations.find? ⟨registry, name⟩ with
      | some _ => .ok ()
      | none => .error (.organizationNotFound s) := by
  simp only [deleteOrganization, parsed, adminClient,
    perform_of_success _ (failureOf?_eq_none working _), changing, Store.deleteOrganization]
  by_cases kept : r.store.organizations.contains ⟨registry, name⟩ = true
  · obtain ⟨organization, found⟩ := Option.isSome_iff_exists.mp kept
    rw [if_pos kept, found]
    rfl
  · have missing := Option.not_isSome_iff_eq_none.mp kept
    rw [if_neg kept, missing]
    rfl

theorem getLabel_answer (working : r.failureOf? .getLabels = none)
    (parsed : parseLabel s = .ok (n, ref)) : (getLabel adminClient s r).1 =
      match r.store.modules.find? (ref.module.on n.registry),
        r.store.labelTarget? n.registry ref with
      | some module, some commitId => .ok ⟨ref.label, module.id, commitId⟩
      | _, _ => .error (.labelNotFound s) := by
  simp only [getLabel, parsed, adminClient, perform_of_success (.getLabels _ _) working,
    reading, Store.getLabels, List.mapM_cons, List.mapM_nil]
  cases r.store.modules.find? (ref.module.on n.registry) with
  | none => rfl
  | some module => cases r.store.labelTarget? n.registry ref <;> rfl

theorem updateLabel_of_canMove {commitId : CommitId} (working : r.failure = none)
    (parsed : parseLabel s = .ok (n, ref))
    (can : r.store.CanMove n.registry ⟨ref, commitId.text⟩) :
    ∃ label, (updateLabel adminClient s commitId r).1 = .ok label := by
  obtain ⟨label, moved⟩ := Store.moveLabel_of_canMove can
  refine ⟨label, ?_⟩
  simp only [updateLabel, parsed, adminClient,
    perform_of_success _ (failureOf?_eq_none working _), Store.moveLabels, moved]
  rfl

theorem updateLabel_of_not_canMove {commitId : CommitId} (working : r.failure = none)
    (parsed : parseLabel s = .ok (n, ref))
    (cannot : ¬ r.store.CanMove n.registry ⟨ref, commitId.text⟩) :
    (updateLabel adminClient s commitId r).1 = .error (.moduleNotFound s) := by
  obtain ⟨what, failed⟩ := Store.moveLabel_of_not_canMove cannot
  simp only [updateLabel, parsed, adminClient,
    perform_of_success _ (failureOf?_eq_none working _), Store.moveLabels, failed]
  rfl

/-! ## What is not found -/

/-- A store has no module that a text refers to. -/
def LacksModule (store : Store) (s : String) : Prop :=
  ∃ n, parseModule s = .ok n ∧ store.modules.find? (n.ref.on n.registry) = none

/-- A store has not the module of the label that a text refers to. -/
def LacksModuleOfLabel (store : Store) (s : String) : Prop :=
  ∃ n ref, parseLabel s = .ok (n, ref) ∧ store.modules.find? (ref.module.on n.registry) = none

/-- A store has the module of the label that a text refers to, but no commit of an id in it. -/
def LacksCommit (store : Store) (s : String) (commitId : CommitId) : Prop :=
  ∃ n ref module, parseLabel s = .ok (n, ref) ∧
    store.modules.find? (ref.module.on n.registry) = some module ∧
    ∀ commit, store.commits.find? commitId.text = some commit → commit.moduleId ≠ module.id

/-- A store has not the label that a text refers to, or not the module of it. -/
def LacksLabel (store : Store) (s : String) : Prop :=
  ∃ n ref, parseLabel s = .ok (n, ref) ∧ store.labelTarget? n.registry ref = none

/-- A store has no organization that a text refers to. -/
def LacksOrganization (store : Store) (s : String) : Prop :=
  ∃ registry name, parseOrganization s = .ok (registry, name) ∧
    store.organizations.find? ⟨registry, name⟩ = none

theorem setDeprecated_eq_notFound_iff (working : r.failure = none) (deprecated : Bool)
    (t : String) : (setDeprecated adminClient s deprecated r).1 = .error (.moduleNotFound t) ↔
      t = s ∧ LacksModule r.store s := by
  cases parsed : parseModule s with
  | error error =>
      obtain ⟨fault, rfl⟩ := invalid_of_parseModule parsed
      simp [setDeprecated, LacksModule, parsed]
  | ok n =>
      rw [setDeprecated_answer working parsed]
      cases found : r.store.modules.find? (n.ref.on n.registry) with
      | none => simp [LacksModule, parsed, found, eq_comm]
      | some module => simp [LacksModule, parsed, found]

theorem deleteOrganization_eq_notFound_iff (working : r.failure = none) (t : String) :
    (deleteOrganization adminClient s r).1 = .error (.organizationNotFound t) ↔
      t = s ∧ LacksOrganization r.store s := by
  cases parsed : parseOrganization s with
  | error error =>
      obtain ⟨fault, rfl⟩ := invalid_of_parseOrganization parsed
      simp [deleteOrganization, LacksOrganization, parsed]
  | ok place =>
      obtain ⟨registry, name⟩ := place
      rw [deleteOrganization_answer working parsed]
      cases found : r.store.organizations.find? ⟨registry, name⟩ with
      | none => simp [LacksOrganization, parsed, found, eq_comm]
      | some organization => simp [LacksOrganization, parsed, found]

theorem getLabel_eq_notFound_iff (working : r.failure = none) (t : String) :
    (getLabel adminClient s r).1 = .error (.labelNotFound t) ↔ t = s ∧ LacksLabel r.store s := by
  cases parsed : parseLabel s with
  | error error =>
      obtain ⟨fault, rfl⟩ := invalid_of_parseLabel parsed
      simp [getLabel, LacksLabel, parsed]
  | ok place =>
      obtain ⟨n, ref⟩ := place
      rw [getLabel_answer (failureOf?_eq_none working _) parsed]
      cases target : r.store.labelTarget? n.registry ref with
      | none => simp [LacksLabel, parsed, target, eq_comm]
      | some commitId =>
          obtain ⟨module, found, -⟩ := Option.bind_eq_some_iff.mp target
          simp [LacksLabel, parsed, target, found]

theorem not_canMove_iff (parsed : parseLabel s = .ok (n, ref)) {store : Store}
    {commitId : CommitId} : ¬ store.CanMove n.registry ⟨ref, commitId.text⟩ ↔
      LacksModuleOfLabel store s ∨ LacksCommit store s commitId := by
  cases found : store.modules.find? (ref.module.on n.registry) with
  | none => simp [Store.CanMove, LacksModuleOfLabel, parsed, found]
  | some module => simp [Store.CanMove, LacksModuleOfLabel, LacksCommit, parsed, found]

theorem not_lacksModuleOfLabel_of_lacksCommit {store : Store} {commitId : CommitId}
    (lacks : LacksCommit store s commitId) : ¬ LacksModuleOfLabel store s := by
  obtain ⟨n, ref, module, parsed, found, -⟩ := lacks
  simp [LacksModuleOfLabel, parsed, found]

theorem updateLabel_eq_notFound_iff (working : r.failure = none) (commitId : CommitId)
    (t : String) : (updateLabel adminClient s commitId r).1 = .error (.moduleNotFound t) ↔
      t = s ∧ (LacksModuleOfLabel r.store s ∨ LacksCommit r.store s commitId) := by
  cases parsed : parseLabel s with
  | error error =>
      obtain ⟨fault, rfl⟩ := invalid_of_parseLabel parsed
      simp [updateLabel, LacksModuleOfLabel, LacksCommit, parsed]
  | ok place =>
      obtain ⟨n, ref⟩ := place
      rw [← not_canMove_iff parsed]
      by_cases can : r.store.CanMove n.registry ⟨ref, commitId.text⟩
      · obtain ⟨label, answer⟩ := updateLabel_of_canMove working parsed can
        simp [answer, can]
      · simp [updateLabel_of_not_canMove working parsed can, can, eq_comm]

/-- Administration says that something is not found, and says so in the words of the text, exactly
if a store lacks it. For a label to be moved this may be the commit, and then the module is there
that is said not to be. A text that refers to nothing is reported as it is, with no call to a
registry. -/
theorem notFound_iff_lacks (working : r.failure = none) (s t : String) :
    (∀ deprecated, (setDeprecated adminClient s deprecated r).1 = .error (.moduleNotFound t) ↔
      t = s ∧ LacksModule r.store s) ∧
    (∀ commitId, ((updateLabel adminClient s commitId r).1 = .error (.moduleNotFound t) ↔
        t = s ∧ (LacksModuleOfLabel r.store s ∨ LacksCommit r.store s commitId)) ∧
      (LacksCommit r.store s commitId → ¬ LacksModuleOfLabel r.store s)) ∧
    ((getLabel adminClient s r).1 = .error (.labelNotFound t) ↔ t = s ∧ LacksLabel r.store s) ∧
    ((deleteOrganization adminClient s r).1 = .error (.organizationNotFound t) ↔
      t = s ∧ LacksOrganization r.store s) ∧
    (∀ error, parseModule s = .error error → Invalid s error ∧
      ∀ deprecated, setDeprecated adminClient s deprecated r = (.error error, r)) ∧
    (∀ error, parseLabel s = .error error → Invalid s error ∧
      getLabel adminClient s r = (.error error, r) ∧
      ∀ commitId, updateLabel adminClient s commitId r = (.error error, r)) ∧
    (∀ error, parseOrganization s = .error error → Invalid s error ∧
      deleteOrganization adminClient s r = (.error error, r)) := by
  refine ⟨fun deprecated => setDeprecated_eq_notFound_iff working deprecated t,
    fun commitId => ⟨updateLabel_eq_notFound_iff working commitId t,
      not_lacksModuleOfLabel_of_lacksCommit⟩,
    getLabel_eq_notFound_iff working t, deleteOrganization_eq_notFound_iff working t, ?_, ?_, ?_⟩
  · intro error failed
    exact ⟨invalid_of_parseModule failed, fun deprecated => by simp [setDeprecated, failed]⟩
  · intro error failed
    exact ⟨invalid_of_parseLabel failed, by simp [getLabel, failed],
      fun commitId => by simp [updateLabel, failed]⟩
  · intro error failed
    exact ⟨invalid_of_parseOrganization failed, by simp [deleteOrganization, failed]⟩

/-- Where there is one module, another and its labels are not found, and neither is a label of the
one. -/
theorem notFound_beside_seeded : ∃ r : MemoryRegistry, r.Reachable ∧
    (setDeprecated adminClient "r.dev/acme/dogs" true r).1 =
      .error (.moduleNotFound "r.dev/acme/dogs") ∧
    (updateLabel adminClient "r.dev/acme/dogs:v1" .nil r).1 =
      .error (.moduleNotFound "r.dev/acme/dogs:v1") ∧
    (getLabel adminClient "r.dev/acme/pets:v1" r).1 =
      .error (.labelNotFound "r.dev/acme/pets:v1") ∧
    (deleteOrganization adminClient "r.dev/acme" r).1 =
      .error (.organizationNotFound "r.dev/acme") ∧
    (getLabel adminClient "r.dev/acme/pets" r).2 = r := by
  let r := (empty.seedModule "r.dev" ⟨"acme", "pets"⟩ "main").2
  let pets : FullName := ⟨"r.dev", "acme", "pets", by decide, by decide, by decide⟩
  let dogs : FullName := ⟨"r.dev", "acme", "dogs", by decide, by decide, by decide⟩
  have dogsLabel : parseLabel "r.dev/acme/dogs:v1" = .ok (dogs, ⟨dogs.ref, "v1"⟩) :=
    parseLabel_eq_ok_iff.mpr ⟨rfl, by decide, by decide, by decide⟩
  have petsLabel : parseLabel "r.dev/acme/pets:v1" = .ok (pets, ⟨pets.ref, "v1"⟩) :=
    parseLabel_eq_ok_iff.mpr ⟨rfl, by decide, by decide, by decide⟩
  have noLabel : parseLabel "r.dev/acme/pets" =
      .error (.invalidReference "r.dev/acme/pets" .notLabel) := by decide
  have noModule : LacksModule r.store "r.dev/acme/dogs" :=
    ⟨dogs, parseModule_eq_ok_iff.mpr (by decide), by decide⟩
  have noModuleOfLabel : LacksModuleOfLabel r.store "r.dev/acme/dogs:v1" :=
    ⟨dogs, _, dogsLabel, by decide⟩
  have noLabelOfModule : LacksLabel r.store "r.dev/acme/pets:v1" :=
    ⟨pets, _, petsLabel, by decide⟩
  have noOrganization : LacksOrganization r.store "r.dev/acme" :=
    ⟨"r.dev", "acme", by decide, by decide⟩
  have told := fun s => notFound_iff_lacks (r := r) rfl s s
  exact ⟨r, .single (.seedModule empty "r.dev" ⟨"acme", "pets"⟩ "main"),
    ((told _).1 true).mpr ⟨rfl, noModule⟩,
    ((told _).2.1 .nil).1.mpr ⟨rfl, .inl noModuleOfLabel⟩,
    (told _).2.2.1.mpr ⟨rfl, noLabelOfModule⟩,
    (told _).2.2.2.1.mpr ⟨rfl, noOrganization⟩,
    congrArg Prod.snd ((told _).2.2.2.2.2.1 _ noLabel).2.1⟩

/-- A module that is there is said not to be, where a label is to be moved to a commit that is not
there. -/
theorem kept_module_said_missing : ∃ r : MemoryRegistry, r.Reachable ∧ r.failure = none ∧
    (updateLabel adminClient "r.dev/acme/pets:stable" ⟨.allOnes 128⟩ r).1 =
      .error (.moduleNotFound "r.dev/acme/pets:stable") ∧
    ¬ LacksModuleOfLabel r.store "r.dev/acme/pets:stable" := by
  let r := (empty.seedModule "r.dev" ⟨"acme", "pets"⟩ "main").2
  let pets : FullName := ⟨"r.dev", "acme", "pets", by decide, by decide, by decide⟩
  have parsed : parseLabel "r.dev/acme/pets:stable" = .ok (pets, ⟨pets.ref, "stable"⟩) :=
    parseLabel_eq_ok_iff.mpr ⟨rfl, by decide, by decide, by decide⟩
  have found : r.store.modules.find? (pets.ref.on pets.registry) =
      some ⟨Store.idText 1, "acme", "pets", .isPrivate, "main", .active⟩ := by decide
  have lacks : LacksCommit r.store "r.dev/acme/pets:stable" ⟨.allOnes 128⟩ :=
    ⟨pets, _, _, parsed, found, fun _ made => nomatch made⟩
  exact ⟨r, .single (.seedModule empty "r.dev" ⟨"acme", "pets"⟩ "main"), rfl,
    (updateLabel_eq_notFound_iff rfl ⟨.allOnes 128⟩ _).mpr ⟨rfl, .inr lacks⟩,
    not_lacksModuleOfLabel_of_lacksCommit lacks⟩

/-! ## Which labels can be looked up -/

/-- What is looked up is a label of that name, which has no colon. -/
theorem name_of_getLabel {label : Label} (answer : (getLabel adminClient s r).1 = .ok label)
    (working : r.failureOf? .getLabels = none) :
    ∃ n, s = labelText n label.name ∧ ':' ∉ label.name.toList := by
  cases parsed : parseLabel s with
  | error error => simp [getLabel, parsed] at answer
  | ok place =>
      obtain ⟨n, ref⟩ := place
      obtain ⟨-, -, free, text⟩ := parseLabel_eq_ok_iff.mp parsed
      rw [getLabel_answer working parsed] at answer
      split at answer
      · obtain rfl := Except.ok.inj answer
        exact ⟨n, text, free⟩
      · cases answer

/-- The text of a label is read back as that label exactly if the label has no colon, what is read
as a label is the text of it, and of the labels of a module those with no colon can be looked up. -/
theorem labelText_addresses_iff {label : String} (valid : checkLabelName label = .ok ())
    (n : FullName) :
    (parseLabel (labelText n label) = .ok (n, ⟨n.ref, label⟩) ↔ ':' ∉ label.toList) ∧
    (∀ s m ref, parseLabel s = .ok (m, ref) →
      ref.module = m.ref ∧ s = labelText m ref.label) ∧
    ∀ (r : MemoryRegistry) (module : RegistryModule) (commitId : String),
      r.failureOf? .getLabels = none →
      r.store.modules.find? (n.ref.on n.registry) = some module →
      r.store.labels.find? ⟨n.registry, module.id, label⟩ = some commitId →
      ((∃ s, (getLabel adminClient s r).1 = .ok ⟨label, module.id, commitId⟩) ↔
        ':' ∉ label.toList) := by
  have read : ':' ∉ label.toList → parseLabel (labelText n label) = .ok (n, ⟨n.ref, label⟩) :=
    fun free => parseLabel_eq_ok_iff.mpr ⟨rfl, checkLabelName_eq_ok_iff.mp valid, free, rfl⟩
  refine ⟨⟨fun parsed => (parseLabel_eq_ok_iff.mp parsed).2.2.1, read⟩, ?_, ?_⟩
  · intro s m ref parsed
    obtain ⟨owned, -, -, text⟩ := parseLabel_eq_ok_iff.mp parsed
    exact ⟨owned, text⟩
  · intro r module commitId working found kept
    constructor
    · rintro ⟨s, answer⟩
      obtain ⟨-, -, free⟩ := name_of_getLabel answer working
      exact free
    · intro free
      refine ⟨labelText n label, ?_⟩
      have target : r.store.labelTarget? n.registry ⟨n.ref, label⟩ = some commitId := by
        simp [Store.labelTarget?, found, kept]
      rw [getLabel_answer working (read free), found, target]

/-- A label is read and looked up on a registry whose name has a colon. -/
theorem label_at_port_addressed : ∃ (n : FullName) (r : MemoryRegistry) (s : String),
    labelText n "v1" = "localhost:8080/acme/pets:v1" ∧
    parseLabel (labelText n "v1") = .ok (n, ⟨n.ref, "v1"⟩) ∧ r.Reachable ∧
    (getLabel adminClient s r).1 = .ok ⟨"v1", Store.idText 1, Store.idText 2⟩ := by
  let n : FullName := ⟨"localhost:8080", "acme", "pets", by decide, by decide, by decide⟩
  let seeded := (empty.seedModule "localhost:8080" n.ref "main").2
  let r := (client.upload "localhost:8080" [⟨n.ref, [], ["v1"], none⟩] [] seeded).2
  have reachable : r.Reachable :=
    .tail (.single (.seedModule empty "localhost:8080" n.ref "main")) (.upload seeded _ _ _)
  have found : r.store.modules.find? (n.ref.on n.registry) =
      some ⟨Store.idText 1, "acme", "pets", .isPrivate, "main", .active⟩ := by decide
  have kept : r.store.labels.find? ⟨n.registry, Store.idText 1, "v1"⟩ = some (Store.idText 2) := by
    decide
  have valid : checkLabelName "v1" = .ok () := by decide
  have free : ':' ∉ "v1".toList := by decide
  obtain ⟨read, -, addressed⟩ := labelText_addresses_iff valid n
  obtain ⟨s, answer⟩ := (addressed r _ _ rfl found kept).mpr free
  exact ⟨n, r, s, by decide, read.mpr free, reachable, answer⟩

/-- A label that was uploaded to and that the registry has is not found by its text, which is read
as another label of another module. -/
theorem uploaded_label_not_found : ∃ r : MemoryRegistry, r.Reachable ∧
    checkLabelName "v1:2" = .ok () ∧
    (parseLabel "r.dev/acme/pets:v1:2").map Prod.snd = .ok ⟨⟨"acme", "pets:v1"⟩, "2"⟩ ∧
    (adminClient.getLabels "r.dev" [⟨⟨"acme", "pets"⟩, "v1:2"⟩] r).1 =
      .ok [⟨"v1:2", Store.idText 1, Store.idText 2⟩] ∧
    (getLabel adminClient "r.dev/acme/pets:v1:2" r).1 =
      .error (.labelNotFound "r.dev/acme/pets:v1:2") := by
  let seeded := (empty.seedModule "r.dev" ⟨"acme", "pets"⟩ "main").2
  let r := (client.upload "r.dev" [⟨⟨"acme", "pets"⟩, [], ["v1:2"], none⟩] [] seeded).2
  have reachable : r.Reachable :=
    .tail (.single (.seedModule empty "r.dev" ⟨"acme", "pets"⟩ "main")) (.upload seeded _ _ _)
  exact ⟨r, reachable, by decide, by decide, by decide, by decide⟩

end SchemaModules.Admin
