import SchemaModules.Proofs.Registry.Failure
import SchemaModules.Proofs.Registry.Numbering

/-! # Registries that share a memory

All registries of a memory are in one store and their ids come from one counter. A call to one of
them is confined to it (`MemoryRegistry.confined_request`), and so are any calls to it one after
another (`MemoryRegistry.Calls.confined`): what the others keep stays as it is, as the ids that they
keep are not handed out again (`Store.Confined.sameOn`).
-/

namespace SchemaModules

open Relation (ReflTransGen)

namespace Store

/-- What a registry keeps is the same in two stores. -/
structure SameOn (registry : String) (s t : Store) : Prop where
  modules : ∀ place, place.registry = registry → t.modules.find? place = s.modules.find? place
  labels : ∀ place, place.registry = registry → t.labels.find? place = s.labels.find? place
  organizations : ∀ place, place.registry = registry →
    t.organizations.find? place = s.organizations.find? place
  commits : ∀ id commit, commit.registry = registry →
    (t.commits.find? id = some commit ↔ s.commits.find? id = some commit)

/-- A store comes to be another by changes of one registry. Commits are kept by their ids alone, so
these are apart in that they are of the registry and under ids that were yet to be handed out. -/
structure Confined (registry : String) (s t : Store) : Prop where
  nextId_le : s.nextId ≤ t.nextId
  modules : ∀ place, place.registry ≠ registry → t.modules.find? place = s.modules.find? place
  labels : ∀ place, place.registry ≠ registry → t.labels.find? place = s.labels.find? place
  organizations : ∀ place, place.registry ≠ registry →
    t.organizations.find? place = s.organizations.find? place
  commits : ∀ id, t.commits.find? id = s.commits.find? id ∨
    (∃ n, s.nextId ≤ n ∧ n < t.nextId ∧ id = idText n) ∧
      ∃ commit, t.commits.find? id = some commit ∧ commit.registry = registry

variable {registry other : String} {s t u : Store}

theorem SameOn.refl (registry : String) (s : Store) : s.SameOn registry s where
  modules _ _ := rfl
  labels _ _ := rfl
  organizations _ _ := rfl
  commits _ _ _ := .rfl

namespace Confined

theorem refl (registry : String) (s : Store) : s.Confined registry s where
  nextId_le := le_rfl
  modules _ _ := rfl
  labels _ _ := rfl
  organizations _ _ := rfl
  commits _ := .inl rfl

theorem trans (first : s.Confined registry t) (second : t.Confined registry u) :
    s.Confined registry u where
  nextId_le := first.nextId_le.trans second.nextId_le
  modules place elsewhere := (second.modules place elsewhere).trans (first.modules place elsewhere)
  labels place elsewhere := (second.labels place elsewhere).trans (first.labels place elsewhere)
  organizations place elsewhere :=
    (second.organizations place elsewhere).trans (first.organizations place elsewhere)
  commits id := by
    rcases second.commits id with same | ⟨⟨n, next, before, named⟩, made⟩
    · rw [same]
      refine (first.commits id).imp_right fun ⟨⟨n, next, before, named⟩, made⟩ => ?_
      exact ⟨⟨n, next, before.trans_le second.nextId_le, named⟩, made⟩
    · exact .inr ⟨⟨n, first.nextId_le.trans next, before, named⟩, made⟩

/-- What other registries keep is not touched: the ids of their commits were handed out before. -/
theorem sameOn (confined : s.Confined registry t) (numbered : s.Numbered) (room : t.InRange)
    (apart : other ≠ registry) : s.SameOn other t where
  modules place here := confined.modules place (here.trans_ne apart)
  labels place here := confined.labels place (here.trans_ne apart)
  organizations place here := confined.organizations place (here.trans_ne apart)
  commits id commit here := by
    rcases confined.commits id with same | ⟨⟨n, next, before, named⟩, made, found, there⟩
    · rw [same]
    · refine iff_of_false (fun kept => ?_) fun kept => ?_
      · obtain rfl := Option.some.inj (found.symm.trans kept)
        exact apart (here.symm.trans there)
      · have issued : s.Keeps id := .inr (.inl ⟨id, commit, kept, .inl rfl⟩)
        exact numbered.idText_ne_of_keeps next (before.trans room) issued named.symm

end Confined

/-! ## Each change is of one registry -/

theorem confined_addModule (s : Store) (registry : String) (new : NewModule) :
    s.Confined registry (s.addModule registry new).2 where
  nextId_le := Nat.le_succ _
  modules _ elsewhere :=
    s.modules.find?_insert_of_ne (fun same => elsewhere (congrArg ModulePlace.registry same)) _
  labels _ _ := rfl
  organizations _ _ := rfl
  commits _ := .inl rfl

theorem confined_addCommit (s : Store) (registry moduleId : String) (digest : Digest) :
    s.Confined registry (s.addCommit registry moduleId digest).2 where
  nextId_le := Nat.le_succ _
  modules _ _ := rfl
  labels _ _ := rfl
  organizations _ _ := rfl
  commits id := by
    simp only [addCommit, SortedMap.find?_insert]
    by_cases added : id = idText s.nextId
    · rw [if_pos added]
      exact .inr ⟨⟨_, le_rfl, Nat.lt_succ_self _, added⟩, _, rfl, rfl⟩
    · exact .inl (if_neg added)

theorem confined_setLabel (s : Store) (registry moduleId commitId name : String) :
    s.Confined registry (s.setLabel registry moduleId commitId name) where
  nextId_le := le_rfl
  modules _ _ := rfl
  labels _ elsewhere :=
    s.labels.find?_insert_of_ne (fun same => elsewhere (congrArg LabelPlace.registry same)) _
  organizations _ _ := rfl
  commits _ := .inl rfl

theorem confined_setModule (s : Store) (registry : String) (ref : ModuleRef)
    (module : RegistryModule) :
    s.Confined registry { s with modules := s.modules.insert (ref.on registry) module } where
  nextId_le := le_rfl
  modules _ elsewhere :=
    s.modules.find?_insert_of_ne (fun same => elsewhere (congrArg ModulePlace.registry same)) _
  labels _ _ := rfl
  organizations _ _ := rfl
  commits _ := .inl rfl

theorem confined_addOrganization (s : Store) (registry name : String) :
    s.Confined registry (s.addOrganization registry name).2 where
  nextId_le := Nat.le_succ _
  modules _ _ := rfl
  labels _ _ := rfl
  organizations _ elsewhere := s.organizations.find?_insert_of_ne
    (fun same => elsewhere (congrArg OrganizationPlace.registry same)) _
  commits _ := .inl rfl

theorem confined_eraseOrganization (s : Store) (registry name : String) :
    s.Confined registry
      { s with organizations := s.organizations.erase ⟨registry, name⟩ } where
  nextId_le := le_rfl
  modules _ _ := rfl
  labels _ _ := rfl
  organizations _ elsewhere := s.organizations.find?_erase_of_ne
    (fun same => elsewhere (congrArg OrganizationPlace.registry same))
  commits _ := .inl rfl

/-! ## Each operation is -/

theorem confined_addModules (registry : String) (requests : List NewModule) (s : Store) :
    s.Confined registry (addModules registry requests s).2 := by
  induction requests generalizing s with
  | nil => exact .refl registry s
  | cons new rest ih => exact (confined_addModule s registry new).trans (ih _)

theorem confined_createModules {requests : List NewModule} {created : List RegistryModule}
    (done : createModules registry requests s = .ok (created, t)) : s.Confined registry t := by
  unfold createModules at done
  split at done
  · cases done
  · obtain rfl : (addModules registry requests s).2 = t := congrArg Prod.snd (Except.ok.inj done)
    exact confined_addModules registry requests s

theorem confined_setLabels (registry moduleId commitId : String) (names : List String)
    (s : Store) : s.Confined registry (s.setLabels registry moduleId commitId names) := by
  induction names generalizing s with
  | nil => exact .refl registry s
  | cons name rest ih => exact (confined_setLabel s registry moduleId commitId name).trans (ih _)

theorem confined_publishAll (registry : String) (pairs : List (UploadContent × RegistryModule))
    (s : Store) : s.Confined registry (publishAll registry pairs s).2 := by
  induction pairs generalizing s with
  | nil => exact .refl registry s
  | cons pair rest ih =>
      have published : s.Confined registry (s.publish registry pair.1 pair.2).2 := by
        rw [publish_snd]
        exact (confined_addCommit s ..).trans (confined_setLabels ..)
      exact published.trans (ih _)

theorem confined_upload {contents : List UploadContent} {commits : List UploadedCommit}
    (done : upload registry contents s = .ok (commits, t)) : s.Confined registry t := by
  obtain ⟨modules, -, published⟩ := Outcome.bind_eq_ok_iff.mp done
  obtain rfl : (publishAll registry (contents.zip modules) s).2 = t :=
    congrArg Prod.snd (Outcome.pure_eq_ok_iff.mp published)
  exact confined_publishAll ..

theorem confined_moveLabel {move : LabelMove} {label : Label}
    (done : moveLabel registry move s = .ok (label, t)) : s.Confined registry t := by
  obtain ⟨module, -, remaining⟩ := Outcome.bind_eq_ok_iff.mp done
  split at remaining
  · obtain rfl : s.setLabel registry module.id move.commitId move.ref.label = t :=
      congrArg Prod.snd (Outcome.pure_eq_ok_iff.mp remaining)
    exact confined_setLabel ..
  · cases remaining

theorem confined_moveLabels (registry : String) (moves : List LabelMove) (s : Store) :
    s.Confined registry (moveLabels registry moves s).2 := by
  induction moves generalizing s with
  | nil => exact .refl registry s
  | cons move rest ih =>
      unfold moveLabels
      cases moved : moveLabel registry move s with
      | error error => exact .refl registry s
      | ok result => exact (confined_moveLabel moved).trans (ih result.2)

theorem confined_setModuleState {ref : ModuleRef} {state : ModuleState} {module : RegistryModule}
    (done : setModuleState registry ref state s = .ok (module, t)) : s.Confined registry t := by
  obtain ⟨before, -, changed⟩ := Outcome.bind_eq_ok_iff.mp done
  obtain rfl : { s with
      modules := s.modules.insert (ref.on registry) { before with state := state } } = t :=
    congrArg Prod.snd (Outcome.pure_eq_ok_iff.mp changed)
  exact confined_setModule ..

theorem confined_createOrganization {name : String} {organization : Organization}
    (done : createOrganization registry name s = .ok (organization, t)) :
    s.Confined registry t := by
  unfold createOrganization at done
  split at done
  · cases done
  · obtain rfl : (s.addOrganization registry name).2 = t := congrArg Prod.snd (Except.ok.inj done)
    exact confined_addOrganization ..

theorem confined_deleteOrganization {name : String} {answer : Unit}
    (done : deleteOrganization registry name s = .ok (answer, t)) : s.Confined registry t := by
  unfold deleteOrganization at done
  split at done
  · obtain rfl : { s with organizations := s.organizations.erase ⟨registry, name⟩ } = t :=
      congrArg Prod.snd (Except.ok.inj done)
    exact confined_eraseOrganization ..
  · cases done

end Store

/-! ## Calls -/

open MemoryRegistry (client adminClient) in
/-- Registries after a call, whether it fails or not. -/
def Request.after (request : Request) (r : MemoryRegistry) : MemoryRegistry :=
  match request with
  | .createModules registry requests => (client.createModules registry requests r).2
  | .getModules registry refs => (client.getModules registry refs r).2
  | .upload registry contents depCommitIds => (client.upload registry contents depCommitIds r).2
  | .uploadFederated registry contents deps => (client.uploadFederated registry contents deps r).2
  | .getLabels registry refs => (adminClient.getLabels registry refs r).2
  | .updateLabels registry moves => (adminClient.updateLabels registry moves r).2
  | .updateModuleState registry ref state => (adminClient.updateModuleState registry ref state r).2
  | .createOrganization registry name => (adminClient.createOrganization registry name r).2
  | .deleteOrganization registry name => (adminClient.deleteOrganization registry name r).2

namespace MemoryRegistry

variable {α : Type} {registry : String} {r last : MemoryRegistry}

theorem confined_perform (operation : Operation) {run : Call Store α}
    (runs : ∀ s : Store, s.Confined registry (run s).2) (r : MemoryRegistry) :
    r.store.Confined registry (perform operation run r).2.store := by
  unfold perform
  cases r.failureOf? operation.method with
  | some error => exact .refl registry r.store
  | none => exact runs r.store

theorem confined_changing {change : Store → Except RegistryError (α × Store)}
    (changes : ∀ (s t : Store) (answer : α), change s = .ok (answer, t) → s.Confined registry t)
    (s : Store) : s.Confined registry (changing change s).2 := by
  unfold changing
  split
  · next answer t done => exact changes s t answer done
  · exact .refl registry s

/-- A call is confined to the registry that it is made to. -/
theorem confined_request (request : Request) (r : MemoryRegistry) :
    r.store.Confined request.operation.registry (request.after r).store := by
  cases request with
  | createModules registry requests =>
      exact confined_perform _ (confined_changing fun _ _ _ => Store.confined_createModules) r
  | getModules registry refs => exact confined_perform _ (fun s => .refl registry s) r
  | upload registry contents depCommitIds =>
      exact confined_perform _ (confined_changing fun _ _ _ => Store.confined_upload) r
  | uploadFederated registry contents deps =>
      exact confined_perform _ (confined_changing fun _ _ _ => Store.confined_upload) r
  | getLabels registry refs => exact confined_perform _ (fun s => .refl registry s) r
  | updateLabels registry moves =>
      exact confined_perform _ (Store.confined_moveLabels registry moves) r
  | updateModuleState registry ref state =>
      exact confined_perform _ (confined_changing fun _ _ _ => Store.confined_setModuleState) r
  | createOrganization registry name =>
      exact confined_perform _ (confined_changing fun _ _ _ => Store.confined_createOrganization) r
  | deleteOrganization registry name =>
      exact confined_perform _ (confined_changing fun _ _ _ => Store.confined_deleteOrganization) r

/-- Calls to a registry one after another. -/
def Calls (registry : String) : MemoryRegistry → MemoryRegistry → Prop :=
  ReflTransGen fun r last =>
    ∃ request : Request, request.operation.registry = registry ∧ last = request.after r

theorem Calls.single (request : Request) (r : MemoryRegistry) :
    Calls request.operation.registry r (request.after r) :=
  ReflTransGen.single ⟨request, rfl, rfl⟩

/-- Calls to a registry are confined to it. -/
theorem Calls.confined (calls : Calls registry r last) :
    r.store.Confined registry last.store := by
  unfold Calls at calls
  induction calls with
  | refl => exact .refl registry r.store
  | tail _ call ih =>
      obtain ⟨request, rfl, rfl⟩ := call
      exact ih.trans (confined_request request _)

/-- Whatever is called of a registry, other registries keep what they kept. -/
theorem Calls.sameOn (calls : Calls registry r last) (reachable : r.Reachable)
    (room : last.store.InRange) {other : String} (apart : other ≠ registry) :
    r.store.SameOn other last.store :=
  calls.confined.sameOn reachable.numbered room apart

end MemoryRegistry

end SchemaModules
