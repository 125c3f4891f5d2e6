import Mathlib.Logic.Relation
import SchemaModules.Proofs.Registry.Memory
import SchemaModules.Proofs.SortedMap

/-! # States that registries come to

Registries are seeded, told to fail and called, one step after another (`MemoryRegistry.Step`). On
the store every step is a course of the few changes that there are (`Store.Change`), so what each of
these keeps holds in every state that registries come to (`Reachable.store_changes`).
-/

namespace SchemaModules

open Relation (ReflTransGen)

namespace Store

/-- The store has a module of an id on a registry. -/
def HasModule (s : Store) (registry moduleId : String) : Prop :=
  ∃ place module, s.modules.find? place = some module ∧ place.registry = registry ∧
    module.id = moduleId

/-- One change of a store. A commit is made of a module that the store has, and a label is put on a
commit of its module. -/
inductive Change : Store → Store → Prop where
  | addModule (s : Store) (registry : String) (new : NewModule) :
      Change s (s.addModule registry new).2
  | addCommit {s : Store} {registry moduleId : String} (kept : s.HasModule registry moduleId)
      (digest : Digest) : Change s (s.addCommit registry moduleId digest).2
  | setLabel {s : Store} {registry moduleId commitId : String} {commit : StoredCommit}
      (kept : s.HasModule registry moduleId) (made : s.commits.find? commitId = some commit)
      (same : commit.moduleId = moduleId) (name : String) :
      Change s (s.setLabel registry moduleId commitId name)
  | setState {s : Store} {place : ModulePlace} {module : RegistryModule}
      (found : s.modules.find? place = some module) (state : ModuleState) :
      Change s { s with modules := s.modules.insert place { module with state := state } }
  | addOrganization (s : Store) (registry name : String) :
      Change s (s.addOrganization registry name).2
  | eraseOrganization (s : Store) (place : OrganizationPlace) :
      Change s { s with organizations := s.organizations.erase place }

/-- Changes one after another. -/
abbrev Changes : Store → Store → Prop := ReflTransGen Change

variable {s t : Store} {registry : String}

theorem hasModule_of_findModule {ref : ModuleRef} {module : RegistryModule}
    (found : s.findModule registry ref = .ok module) : s.HasModule registry module.id := by
  unfold findModule at found
  split at found
  · next kept =>
      obtain rfl := Except.ok.inj found
      exact ⟨_, _, kept, rfl, rfl⟩
  · cases found

/-! ## The changes of each operation -/

theorem changes_addModules (registry : String) (requests : List NewModule) (s : Store) :
    Changes s (addModules registry requests s).2 := by
  induction requests generalizing s with
  | nil => exact .refl
  | cons new rest ih => exact .head (.addModule s registry new) (ih _)

theorem changes_createModules {requests : List NewModule} {created : List RegistryModule}
    (done : createModules registry requests s = .ok (created, t)) : Changes s t := by
  unfold createModules at done
  split at done
  · cases done
  · obtain rfl : (addModules registry requests s).2 = t := congrArg Prod.snd (Except.ok.inj done)
    exact changes_addModules registry requests s

/-- The store with a commit on several labels. -/
def setLabels (s : Store) (registry moduleId commitId : String) (names : List String) : Store :=
  names.foldl (fun s name => s.setLabel registry moduleId commitId name) s

/-- Labels are all that changes when labels are set. -/
theorem setLabels_eq (s : Store) (registry moduleId commitId : String) (names : List String) :
    s.setLabels registry moduleId commitId names =
      { s with labels := (s.setLabels registry moduleId commitId names).labels } := by
  induction names generalizing s with
  | nil => rfl
  | cons name rest ih => exact ih (s.setLabel registry moduleId commitId name)

theorem changes_setLabels {moduleId commitId : String} {commit : StoredCommit}
    (kept : s.HasModule registry moduleId) (made : s.commits.find? commitId = some commit)
    (same : commit.moduleId = moduleId) (names : List String) :
    Changes s (s.setLabels registry moduleId commitId names) := by
  induction names generalizing s with
  | nil => exact .refl
  | cons name rest ih =>
      apply ReflTransGen.head (.setLabel kept made same name)
      exact ih (s := s.setLabel registry moduleId commitId name) kept made

/-- What is published is a commit with the next id, and labels on it. -/
theorem publish_snd (s : Store) (registry : String) (content : UploadContent)
    (module : RegistryModule) :
    (s.publish registry content module).2 =
      (s.addCommit registry module.id (Digest.ofFiles content.files)).2.setLabels registry module.id
        (idText s.nextId) (if content.labels = [] then [module.defaultLabel] else content.labels) :=
  rfl

theorem modules_publish (s : Store) (registry : String) (content : UploadContent)
    (module : RegistryModule) : (s.publish registry content module).2.modules = s.modules := by
  rw [publish_snd, setLabels_eq]
  rfl

theorem changes_publish (content : UploadContent) {module : RegistryModule}
    (kept : s.HasModule registry module.id) :
    Changes s (s.publish registry content module).2 := by
  rw [publish_snd]
  apply ReflTransGen.head (.addCommit kept (Digest.ofFiles content.files))
  have made : (s.addCommit registry module.id (Digest.ofFiles content.files)).2.commits.find?
      (idText s.nextId) =
        some ⟨registry, module.id, Digest.ofFiles content.files, commitTime s.nextId⟩ := by
    simp only [addCommit]
    rw [SortedMap.find?_insert, if_pos rfl]
  exact changes_setLabels (s := (s.addCommit registry module.id _).2) kept made rfl _

theorem changes_publishAll {pairs : List (UploadContent × RegistryModule)}
    (kept : ∀ pair ∈ pairs, s.HasModule registry pair.2.id) :
    Changes s (publishAll registry pairs s).2 := by
  induction pairs generalizing s with
  | nil => exact .refl
  | cons pair rest ih =>
      obtain ⟨here, later⟩ := List.forall_mem_cons.mp kept
      apply (changes_publish pair.1 here).trans
      apply ih
      intro other member
      have same := modules_publish s registry pair.1 pair.2
      unfold HasModule
      rw [same]
      exact later other member

theorem changes_upload {contents : List UploadContent} {commits : List UploadedCommit}
    (done : upload registry contents s = .ok (commits, t)) : Changes s t := by
  obtain ⟨modules, found, published⟩ := Outcome.bind_eq_ok_iff.mp done
  obtain rfl : (publishAll registry (contents.zip modules) s).2 = t :=
    congrArg Prod.snd (Outcome.pure_eq_ok_iff.mp published)
  apply changes_publishAll
  intro pair member
  obtain ⟨ref, -, kept⟩ := Outcome.exists_of_mem_mapM found (List.of_mem_zip member).2
  exact hasModule_of_findModule kept

theorem changes_moveLabel {move : LabelMove} {label : Label}
    (done : moveLabel registry move s = .ok (label, t)) : Changes s t := by
  obtain ⟨module, found, remaining⟩ := Outcome.bind_eq_ok_iff.mp done
  split at remaining
  · next known =>
      obtain ⟨commit, made, same⟩ := (Option.any_eq_true _ _).mp known
      obtain rfl : s.setLabel registry module.id move.commitId move.ref.label = t :=
        congrArg Prod.snd (Outcome.pure_eq_ok_iff.mp remaining)
      exact .single
        (.setLabel (hasModule_of_findModule found) made (of_decide_eq_true same) _)
  · cases remaining

theorem changes_moveLabels (registry : String) (moves : List LabelMove) (s : Store) :
    Changes s (moveLabels registry moves s).2 := by
  induction moves generalizing s with
  | nil => exact .refl
  | cons move rest ih =>
      unfold moveLabels
      cases moved : moveLabel registry move s with
      | error error => exact .refl
      | ok result => exact (changes_moveLabel moved).trans (ih result.2)

theorem changes_setModuleState {ref : ModuleRef} {state : ModuleState} {module : RegistryModule}
    (done : setModuleState registry ref state s = .ok (module, t)) : Changes s t := by
  obtain ⟨before, found, changed⟩ := Outcome.bind_eq_ok_iff.mp done
  obtain rfl : { s with
      modules := s.modules.insert (ref.on registry) { before with state := state } } = t :=
    congrArg Prod.snd (Outcome.pure_eq_ok_iff.mp changed)
  unfold findModule at found
  split at found
  · next kept =>
      obtain rfl := Except.ok.inj found
      exact .single (.setState kept state)
  · cases found

theorem changes_createOrganization {name : String} {organization : Organization}
    (done : createOrganization registry name s = .ok (organization, t)) : Changes s t := by
  unfold createOrganization at done
  split at done
  · cases done
  · obtain rfl : (s.addOrganization registry name).2 = t := congrArg Prod.snd (Except.ok.inj done)
    exact .single (.addOrganization s registry name)

theorem changes_deleteOrganization {name : String} {answer : Unit}
    (done : deleteOrganization registry name s = .ok (answer, t)) : Changes s t := by
  unfold deleteOrganization at done
  split at done
  · obtain rfl : { s with organizations := s.organizations.erase ⟨registry, name⟩ } = t :=
      congrArg Prod.snd (Except.ok.inj done)
    exact .single (.eraseOrganization s _)
  · cases done

end Store

namespace MemoryRegistry

/-- One thing that is done to registries: they are seeded, their settings are changed, what they
noted is forgotten, or they are called. -/
inductive Step : MemoryRegistry → MemoryRegistry → Prop where
  | seedModule (r : MemoryRegistry) (registry : String) (ref : ModuleRef) (defaultLabel : String) :
      Step r (r.seedModule registry ref defaultLabel).2
  | seedCommit {r last : MemoryRegistry} {registry id : String} {ref : ModuleRef}
      (seeded : r.seedCommit registry ref = .ok (id, last)) : Step r last
  | seedOrganization (r : MemoryRegistry) (registry name : String) :
      Step r (r.seedOrganization registry name)
  | setFailure (r : MemoryRegistry) (failure : Option (Method × RegistryError)) :
      Step r { r with failure := failure }
  | addOmission (r : MemoryRegistry) (omission : Omission) :
      Step r { r with omissions := r.omissions ++ [omission] }
  | forget (r : MemoryRegistry) : Step r { r with operations := [] }
  | createModules (r : MemoryRegistry) (registry : String) (requests : List NewModule) :
      Step r (client.createModules registry requests r).2
  | getModules (r : MemoryRegistry) (registry : String) (refs : List ModuleRef) :
      Step r (client.getModules registry refs r).2
  | upload (r : MemoryRegistry) (registry : String) (contents : List UploadContent)
      (depCommitIds : List String) : Step r (client.upload registry contents depCommitIds r).2
  | uploadFederated (r : MemoryRegistry) (registry : String) (contents : List UploadContent)
      (deps : List DependencyRef) : Step r (client.uploadFederated registry contents deps r).2
  | getLabels (r : MemoryRegistry) (registry : String) (refs : List LabelRef) :
      Step r (adminClient.getLabels registry refs r).2
  | updateLabels (r : MemoryRegistry) (registry : String) (moves : List LabelMove) :
      Step r (adminClient.updateLabels registry moves r).2
  | updateModuleState (r : MemoryRegistry) (registry : String) (ref : ModuleRef)
      (state : ModuleState) : Step r (adminClient.updateModuleState registry ref state r).2
  | createOrganization (r : MemoryRegistry) (registry name : String) :
      Step r (adminClient.createOrganization registry name r).2
  | deleteOrganization (r : MemoryRegistry) (registry name : String) :
      Step r (adminClient.deleteOrganization registry name r).2

/-- A state that registries come to from keeping nothing. -/
def Reachable (r : MemoryRegistry) : Prop := ReflTransGen Step empty r

variable {α : Type} {r last : MemoryRegistry}

theorem changes_perform (operation : Operation) {run : Call Store α}
    (runs : ∀ s : Store, s.Changes (run s).2) (r : MemoryRegistry) :
    r.store.Changes (perform operation run r).2.store := by
  unfold perform
  cases r.failureOf? operation.method with
  | some error => exact .refl
  | none => exact runs r.store

theorem changes_changing {change : Store → Except RegistryError (α × Store)}
    (changes : ∀ (s t : Store) (answer : α), change s = .ok (answer, t) → s.Changes t) (s : Store) :
    s.Changes (changing change s).2 := by
  unfold changing
  split
  · next answer t done => exact changes s t answer done
  · exact .refl

/-- Every step is a course of changes to the store. -/
theorem Step.store_changes (step : Step r last) : r.store.Changes last.store := by
  cases step with
  | seedModule registry ref defaultLabel => exact .single (.addModule _ registry _)
  | seedCommit seeded =>
      obtain ⟨module, found, made⟩ := Outcome.bind_eq_ok_iff.mp seeded
      obtain rfl := congrArg Prod.snd (Outcome.pure_eq_ok_iff.mp made)
      exact .single (.addCommit (Store.hasModule_of_findModule found) _)
  | seedOrganization registry name => exact .single (.addOrganization _ registry name)
  | setFailure failure => exact .refl
  | addOmission omission => exact .refl
  | forget => exact .refl
  | createModules registry requests =>
      exact changes_perform _ (changes_changing fun _ _ _ => Store.changes_createModules) r
  | getModules registry refs => exact changes_perform _ (fun _ => .refl) r
  | upload registry contents depCommitIds =>
      exact changes_perform _ (changes_changing fun _ _ _ => Store.changes_upload) r
  | uploadFederated registry contents deps =>
      exact changes_perform _ (changes_changing fun _ _ _ => Store.changes_upload) r
  | getLabels registry refs => exact changes_perform _ (fun _ => .refl) r
  | updateLabels registry moves =>
      exact changes_perform _ (Store.changes_moveLabels registry moves) r
  | updateModuleState registry ref state =>
      exact changes_perform _ (changes_changing fun _ _ _ => Store.changes_setModuleState) r
  | createOrganization registry name =>
      exact changes_perform _ (changes_changing fun _ _ _ => Store.changes_createOrganization) r
  | deleteOrganization registry name =>
      exact changes_perform _ (changes_changing fun _ _ _ => Store.changes_deleteOrganization) r

/-- What registries keep comes about by changes, from keeping nothing. -/
theorem Reachable.store_changes (reachable : r.Reachable) : Store.empty.Changes r.store := by
  unfold Reachable at reachable
  induction reachable with
  | refl => exact .refl
  | tail _ step ih => exact ih.trans step.store_changes

end MemoryRegistry

end SchemaModules
