import Mathlib.Data.List.Nodup
import Mathlib.Data.List.Perm.Subperm
import SchemaModules.Proofs.Registry.Numbering

/-! # Modules that were created

Creating modules answers with one module for each request, as it was asked for and under an id of its
own. A request takes the place of an earlier one of the same name, so all of the answer is there to
be got exactly if no two requests are for modules of one name (`fetched_of_createModules`).
-/

namespace SchemaModules

/-- What a module was asked for as. -/
def RegistryModule.asked (m : RegistryModule) : NewModule :=
  ⟨⟨m.owner, m.name⟩, m.visibility, m.defaultLabel⟩

namespace Store

variable {registry : String} {requests : List NewModule} {s : Store} {place : ModulePlace}

theorem addModules_cons (registry : String) (new : NewModule) (rest : List NewModule) (s : Store) :
    addModules registry (new :: rest) s =
      ((s.addModule registry new).1 :: (addModules registry rest (s.addModule registry new).2).1,
        (addModules registry rest (s.addModule registry new).2).2) := rfl

theorem find?_addModule (s : Store) (registry : String) (new : NewModule) (place : ModulePlace) :
    (s.addModule registry new).2.modules.find? place =
      if place = new.ref.on registry then some (s.addModule registry new).1
      else s.modules.find? place :=
  SortedMap.find?_insert ..

theorem asked_addModules (registry : String) (requests : List NewModule) (s : Store) :
    (addModules registry requests s).1.map (·.asked) = requests := by
  induction requests generalizing s with
  | nil => rfl
  | cons new rest ih =>
      rw [addModules_cons, List.map_cons, ih]
      rfl

theorem find?_addModules_of_others (others : ∀ new ∈ requests, new.ref.on registry ≠ place) :
    (addModules registry requests s).2.modules.find? place = s.modules.find? place := by
  induction requests generalizing s with
  | nil => rfl
  | cons new rest ih =>
      obtain ⟨here, later⟩ := List.forall_mem_cons.mp others
      rw [addModules_cons, ih later, find?_addModule, if_neg here.symm]

/-- Modules of distinct names are all there after they were added. -/
theorem getModules_addModules (distinct : (requests.map (·.ref)).Nodup) (s : Store) :
    getModules registry (requests.map (·.ref)) (addModules registry requests s).2 =
      .ok (addModules registry requests s).1 := by
  rw [getModules, Outcome.mapM_eq_ok_iff, List.forall₂_map_left_iff]
  induction requests generalizing s with
  | nil => exact .nil
  | cons new rest ih =>
      obtain ⟨once, others⟩ := List.nodup_cons.mp distinct
      rw [addModules_cons]
      refine .cons ?_ (ih others _)
      have apart : ∀ later ∈ rest, later.ref.on registry ≠ new.ref.on registry := by
        intro later member same
        exact once (List.mem_map.mpr ⟨later, member, ModuleRef.on_injective registry same⟩)
      rw [findModule_eq_ok_iff, find?_addModules_of_others apart, find?_addModule, if_pos rfl]

/-! ## How many there are -/

theorem mem_keys_addModules : place ∈ (addModules registry requests s).2.modules.keys ↔
    place ∈ s.modules.keys ++ requests.map (·.ref.on registry) := by
  induction requests generalizing s with
  | nil => simp [addModules]
  | cons new rest ih =>
      have added : place ∈ (s.addModule registry new).2.modules.keys ↔
          place = new.ref.on registry ∨ place ∈ s.modules.keys := SortedMap.mem_keys_insert ..
      rw [addModules_cons, ih, List.mem_append, added, List.mem_append, List.map_cons, List.mem_cons]
      tauto

/-- There are as many more modules as were asked for if none of them takes the place of another. -/
theorem size_addModules_iff : (addModules registry requests s).2.modules.size =
      s.modules.size + requests.length ↔
    (s.modules.keys ++ requests.map (·.ref.on registry)).Nodup := by
  set after := (addModules registry requests s).2.modules
  have size : ∀ map : SortedMap ModulePlace RegistryModule, map.size = map.keys.length :=
    fun map => (List.length_map _).symm
  have all : (s.modules.keys ++ requests.map (·.ref.on registry)).length =
      s.modules.size + requests.length := by
    rw [List.length_append, List.length_map, size]
  have within : after.keys.Subperm (s.modules.keys ++ requests.map (·.ref.on registry)) :=
    after.nodup_keys.subperm fun _ member => mem_keys_addModules.mp member
  rw [size after, ← all]
  constructor
  · intro grown
    exact (within.perm_of_length_le grown.ge).nodup_iff.mp after.nodup_keys
  · intro distinct
    refine (List.Perm.length_eq ?_)
    rw [List.perm_ext_iff_of_nodup after.nodup_keys distinct]
    exact fun _ => mem_keys_addModules

/-! ## Under which ids they are -/

theorem nextId_addModules (registry : String) (requests : List NewModule) (s : Store) :
    (addModules registry requests s).2.nextId = s.nextId + requests.length := by
  induction requests generalizing s with
  | nil => rfl
  | cons new rest ih =>
      rw [addModules_cons, ih, List.length_cons]
      change s.nextId + 1 + rest.length = _
      omega

theorem ids_addModules (registry : String) (requests : List NewModule) (s : Store) :
    (addModules registry requests s).1.map (·.id) =
      (List.range' s.nextId requests.length).map idText := by
  induction requests generalizing s with
  | nil => rfl
  | cons new rest ih =>
      rw [addModules_cons, List.map_cons, ih, List.length_cons, List.range'_succ, List.map_cons]
      rfl

theorem nodup_addModules (room : (addModules registry requests s).2.InRange) :
    (addModules registry requests s).1.Nodup := by
  have small : ∀ n ∈ List.range' s.nextId requests.length, n < 2 ^ 128 := by
    intro n member
    rw [InRange, nextId_addModules] at room
    have bounded := (List.mem_range'_1.mp member).2
    omega
  have ids : ((addModules registry requests s).1.map (·.id)).Nodup := by
    rw [ids_addModules]
    refine List.Nodup.map_on ?_ List.nodup_range'
    intro m first n second same
    exact idText_injective (small m first) (small n second) same
  exact ids.of_map

/-- What is got by names is as distinct as the names. -/
theorem nodup_of_getModules {refs : List ModuleRef} {modules : List RegistryModule}
    (got : getModules registry refs s = .ok modules) (distinct : modules.Nodup) : refs.Nodup := by
  have each := Outcome.mapM_eq_ok_iff.mp got
  refine Outcome.pairwise_of_forall₂ each.flip distinct ?_
  rintro module ref other later found again apart rfl
  exact apart (Except.ok.inj (found.symm.trans again))

theorem createModules_eq_ok_iff {created : List RegistryModule} {t : Store} :
    createModules registry requests s = .ok (created, t) ↔
      (∀ new ∈ requests, new.ref.on registry ∉ s.modules.keys) ∧
        addModules registry requests s = (created, t) := by
  unfold createModules
  cases existing : requests.find? fun new => s.modules.contains (new.ref.on registry) with
  | some new =>
      have known := List.find?_some existing
      rw [SortedMap.contains_iff_mem_keys] at known
      simp only [reduceCtorEq, false_iff, not_and]
      intro missing
      exact absurd known (missing new (List.mem_of_find?_eq_some existing))
  | none =>
      have missing : ∀ new ∈ requests, new.ref.on registry ∉ s.modules.keys := by
        intro new member
        rw [← SortedMap.contains_iff_mem_keys]
        exact List.find?_eq_none.mp existing new member
      simp only [Except.ok.injEq]
      exact (and_iff_right missing).symm

end Store

namespace MemoryRegistry

variable {registry : String} {requests : List NewModule} {created : List RegistryModule}
  {r last : MemoryRegistry}

/-- Modules are created by adding them, where none of them is there yet. -/
theorem added_of_createModules (working : r.failureOf? .createModules = none)
    (done : client.createModules registry requests r = (.ok created, last)) :
    (∀ new ∈ requests, new.ref.on registry ∉ r.store.modules.keys) ∧
      Store.addModules registry requests r.store = (created, last.store) ∧
      last.failure = r.failure := by
  have performed := perform_of_success
    (.createModules registry (requests.map fun new => new.ref)) working
    (changing (Store.createModules registry requests))
  have performed := done.symm.trans performed
  cases stored : Store.createModules registry requests r.store with
  | error error =>
      simp only [changing, stored] at performed
      cases congrArg Prod.fst performed
  | ok result =>
      obtain ⟨answer, t⟩ := result
      simp only [changing, stored] at performed
      obtain rfl : created = answer := Except.ok.inj (congrArg Prod.fst performed)
      obtain rfl := congrArg Prod.snd performed
      obtain ⟨missing, added⟩ := Store.createModules_eq_ok_iff.mp stored
      exact ⟨missing, added, rfl⟩

/-- Names that are of no module yet are distinct exactly if no place is taken twice. -/
theorem nodup_places_iff
    (missing : ∀ new ∈ requests, new.ref.on registry ∉ r.store.modules.keys) :
    (r.store.modules.keys ++ requests.map (·.ref.on registry)).Nodup ↔
      (requests.map (·.ref)).Nodup := by
  have places : requests.map (·.ref.on registry) =
      (requests.map (·.ref)).map (ModuleRef.on registry) := by
    rw [List.map_map]
    rfl
  rw [List.nodup_append, and_iff_right r.store.modules.nodup_keys, places,
    List.nodup_map_iff (ModuleRef.on_injective registry), and_iff_left_iff_imp]
  rintro - kept member place among rfl
  rw [← places] at among
  obtain ⟨new, asked, rfl⟩ := List.mem_map.mp among
  exact missing new asked member

/-- Modules that were created are one for each request, as asked for. There are as many more as were
asked for exactly if no two requests are of one name, and exactly then getting them by their names
gives what was created. -/
theorem fetched_of_createModules (working : r.failure = none)
    (done : client.createModules registry requests r = (.ok created, last))
    (room : last.store.InRange) :
    created.map (·.asked) = requests ∧
      (last.store.modules.size = r.store.modules.size + requests.length ↔
        (requests.map (·.ref)).Nodup) ∧
      ((client.getModules registry (requests.map (·.ref)) last).1 = .ok created ↔
        (requests.map (·.ref)).Nodup) := by
  have idle : r.failureOf? .createModules = none := by
    rw [failureOf?, working]
  obtain ⟨missing, added, same⟩ := added_of_createModules idle done
  have got : (client.getModules registry (requests.map (·.ref)) last).1 =
      Store.getModules registry (requests.map (·.ref)) last.store := by
    have idle : last.failureOf? .getModules = none := by
      rw [failureOf?, same, working]
    exact congrArg Prod.fst (perform_of_success (.getModules registry (requests.map (·.ref)))
      idle (reading (Store.getModules registry (requests.map (·.ref)))))
  rw [got]
  obtain ⟨rfl, grown⟩ := Prod.mk.inj added
  rw [← grown] at room ⊢
  refine ⟨Store.asked_addModules .., ?_, ?_⟩
  · exact Store.size_addModules_iff.trans (nodup_places_iff missing)
  · refine ⟨fun fetched => ?_, fun distinct => ?_⟩
    · exact Store.nodup_of_getModules fetched (Store.nodup_addModules room)
    · exact Store.getModules_addModules distinct r.store

/-- Two modules created on registries that keep nothing yet are there to be got. -/
theorem fetched_of_two_created : ∃ created last,
    let requests : List NewModule := [⟨⟨"acme", "a"⟩, .isPrivate, "main"⟩,
      ⟨⟨"acme", "b"⟩, .isPublic, "dev"⟩]
    client.createModules "r.dev" requests empty = (.ok created, last) ∧
      created.map (·.asked) = requests ∧ last.store.modules.size = 2 ∧
      (client.getModules "r.dev" (requests.map (·.ref)) last).1 = .ok created := by
  let requests : List NewModule := [⟨⟨"acme", "a"⟩, .isPrivate, "main"⟩,
    ⟨⟨"acme", "b"⟩, .isPublic, "dev"⟩]
  have distinct : (requests.map (·.ref)).Nodup := by decide
  have created : (client.createModules "r.dev" requests empty).1 =
      .ok (Store.addModules "r.dev" requests Store.empty).1 := by decide
  have done : client.createModules "r.dev" requests empty = (.ok _, _) := Prod.ext created rfl
  have room : (client.createModules "r.dev" requests empty).2.store.InRange := by decide
  obtain ⟨asked, grown, got⟩ := fetched_of_createModules rfl done room
  exact ⟨_, _, done, asked, grown.mpr distinct, got.mpr distinct⟩

/-- Of two modules of one name that are created at once, the second takes the place of the first. -/
theorem created_over_created : ∃ first second last,
    let new : NewModule := ⟨⟨"acme", "a"⟩, .isPrivate, "main"⟩
    client.createModules "r.dev" [new, new] empty = (.ok [first, second], last) ∧
      last.store.modules.size = 1 ∧
      (client.getModules "r.dev" [new.ref, new.ref] last).1 = .ok [second, second] ∧
      first.id ≠ second.id := by
  let new : NewModule := ⟨⟨"acme", "a"⟩, .isPrivate, "main"⟩
  have created : (client.createModules "r.dev" [new, new] empty).1 =
      .ok [⟨Store.idText 1, "acme", "a", .isPrivate, "main", .active⟩,
        ⟨Store.idText 2, "acme", "a", .isPrivate, "main", .active⟩] := by decide
  exact ⟨_, _, _, Prod.ext created rfl, by decide, by decide, by decide⟩

end MemoryRegistry

end SchemaModules
