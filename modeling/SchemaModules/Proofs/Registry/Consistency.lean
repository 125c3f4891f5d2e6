import Mathlib.Data.List.Perm.Subperm
import SchemaModules.Proofs.Registry.Numbering

/-! # What registries keep fits together

The ids of modules, organizations and commits are distinct, and every label points to a commit of
its own module and registry (`Consistent`). A change of the store keeps that: it adds at most the
next id, which is new, and with commits on the registry of their module (`Sound`), those that a
label can be put on are of its own.
-/

namespace SchemaModules

namespace Store

/-- The ids of the modules, the organizations and the commits. -/
def ids (s : Store) : List String :=
  s.modules.entries.map (·.2.id) ++ s.organizations.entries.map (·.2.id) ++ s.commits.keys

/-- A text is thirty-two lower-case hexadecimal digits of a number that was handed out. -/
structure IsId (s : Store) (id : String) : Prop where
  length : id.length = 32
  lower : ∀ c ∈ id.toList, c ∈ "0123456789abcdef".toList
  number : ∃ n, Text.Hex.toNat? id.toList = some n ∧ 0 < n ∧ n < s.nextId

/-- What a store keeps fits together. -/
structure Consistent (s : Store) : Prop where
  distinct : s.ids.Nodup
  isId : ∀ id ∈ s.ids, s.IsId id
  labels : ∀ place commitId, s.labels.find? place = some commitId →
    ∃ commit, s.commits.find? commitId = some commit ∧ commit.registry = place.registry ∧
      commit.moduleId = place.moduleId

/-- What a store keeps fits together, and commits are on the registry of their module, where that is
still kept. -/
structure Sound (s : Store) : Prop extends s.Consistent where
  placed : ∀ place module commitId commit, s.modules.find? place = some module →
    s.commits.find? commitId = some commit → module.id = commit.moduleId →
    place.registry = commit.registry

variable {s t : Store} {id : String}

/-! ## Ids -/

theorem keeps_of_mem_ids (member : id ∈ s.ids) : s.Keeps id := by
  rcases List.mem_append.mp member with others | commit
  · rcases List.mem_append.mp others with module | organization
    · obtain ⟨⟨place, module⟩, entry, same⟩ := List.mem_map.mp module
      exact .inl ⟨place, module, (SortedMap.find?_eq_some_iff ..).mpr entry, same⟩
    · obtain ⟨⟨place, organization⟩, entry, same⟩ := List.mem_map.mp organization
      exact .inr (.inr (.inl
        ⟨place, organization, (SortedMap.find?_eq_some_iff ..).mpr entry, same⟩))
  · obtain ⟨commit, found⟩ := (SortedMap.mem_keys_iff ..).mp commit
    exact .inr (.inl ⟨id, commit, found, .inl rfl⟩)

theorem Numbered.isId (numbered : s.Numbered) (room : s.nextId ≤ 2 ^ 128) (member : id ∈ s.ids) :
    s.IsId id := by
  obtain ⟨n, positive, before, rfl⟩ := numbered.issued id (keeps_of_mem_ids member)
  refine ⟨by simp [idText], ?_, n, ?_, positive, before⟩
  · rw [idText, String.toList_ofList]
    exact fun c => Text.Hex.lower_of_mem_ofNat
  · rw [idText, String.toList_ofList]
    exact Text.Hex.toNat?_ofNat (before.trans_le (room.trans (by decide)))

/-- A change adds no id but the next one. -/
theorem Change.ids_subperm (change : Change s t) :
    t.ids.Subperm s.ids ∨ s.nextId < t.nextId ∧ t.ids.Subperm (idText s.nextId :: s.ids) := by
  cases change with
  | addModule registry new =>
      have more := SortedMap.map_insert_subperm (·.2.id) s.modules (new.ref.on registry)
        (s.addModule registry new).1
      refine .inr ⟨Nat.lt_succ_self _, ?_⟩
      exact (List.subperm_append_right _).mpr ((List.subperm_append_right _).mpr more)
  | @addCommit registry moduleId _ digest =>
      have more := SortedMap.map_insert_subperm Prod.fst s.commits (idText s.nextId)
        ⟨registry, moduleId, digest, commitTime s.nextId⟩
      refine .inr ⟨Nat.lt_succ_self _, ?_⟩
      exact ((List.subperm_append_left _).mpr more).trans List.perm_middle.subperm
  | setLabel => exact .inl (List.Subperm.refl _)
  | @setState place module found state =>
      have same : ((s.modules.insert place { module with state := state }).entries.map
          (·.2.id)).Perm (s.modules.entries.map (·.2.id)) :=
        ((s.modules.entries_insert_perm place { module with state := state }).map (·.2.id)).trans
          ((s.modules.entries_perm found).map (·.2.id)).symm
      exact .inl ((same.append_right _).append_right _).subperm
  | addOrganization registry name =>
      have more := SortedMap.map_insert_subperm (·.2.id) s.organizations ⟨registry, name⟩
        (s.addOrganization registry name).1
      refine .inr ⟨Nat.lt_succ_self _, ?_⟩
      exact (List.subperm_append_right _).mpr
        (((List.subperm_append_left _).mpr more).trans List.perm_middle.subperm)
  | eraseOrganization place =>
      have fewer : (s.organizations.erase place).entries.Sublist s.organizations.entries :=
        List.filter_sublist
      exact .inl (((fewer.map _).append_left _).append_right _).subperm

theorem Change.nodup_ids (numbered : s.Numbered) (distinct : s.ids.Nodup) (change : Change s t)
    (room : t.nextId ≤ 2 ^ 128) : t.ids.Nodup := by
  rcases change.ids_subperm with ⟨list, same, part⟩ | ⟨handed, list, same, part⟩
  · exact same.nodup_iff.mp (part.nodup distinct)
  · refine same.nodup_iff.mp (part.nodup (List.nodup_cons.mpr ⟨?_, distinct⟩))
    intro old
    exact numbered.idText_ne_of_keeps le_rfl (handed.trans_le room) (keeps_of_mem_ids old) rfl

/-- Modules of one id are at one place. -/
theorem place_eq_of_id (distinct : s.ids.Nodup) {p q : ModulePlace} {a b : RegistryModule}
    (first : s.modules.find? p = some a) (second : s.modules.find? q = some b)
    (same : a.id = b.id) : p = q := by
  have modules : (s.modules.entries.map (·.2.id)).Nodup :=
    (List.nodup_append.mp (List.nodup_append.mp distinct).1).1
  have entries := List.inj_on_of_nodup_map modules ((SortedMap.find?_eq_some_iff ..).mp first)
    ((SortedMap.find?_eq_some_iff ..).mp second) same
  exact congrArg Prod.fst entries

/-! ## Commits and labels -/

theorem Change.placed (numbered : s.Numbered) (sound : s.Sound) (change : Change s t)
    (room : t.nextId ≤ 2 ^ 128) {place : ModulePlace} {module : RegistryModule} {commitId : String}
    {commit : StoredCommit} (found : t.modules.find? place = some module)
    (made : t.commits.find? commitId = some commit) (own : module.id = commit.moduleId) :
    place.registry = commit.registry := by
  cases change with
  | addModule registry new =>
      change (s.modules.insert _ _).find? place = some module at found
      rw [SortedMap.find?_insert] at found
      split at found
      · -- The commit is older than the module of which it would have to be.
        obtain rfl := Option.some.inj found
        have kept : s.Keeps commit.moduleId := .inr (.inl ⟨commitId, commit, made, .inr rfl⟩)
        exact absurd own (numbered.idText_ne_of_keeps le_rfl room kept)
      · exact sound.placed place module commitId commit found made own
  | addCommit kept digest =>
      change (s.commits.insert _ _).find? commitId = some commit at made
      rw [SortedMap.find?_insert] at made
      split at made
      · obtain rfl := Option.some.inj made
        obtain ⟨other, owner, there, registry, same⟩ := kept
        rw [place_eq_of_id sound.distinct found there (own.trans same.symm)]
        exact registry
      · exact sound.placed place module commitId commit found made own
  | setLabel => exact sound.placed place module commitId commit found made own
  | setState here state =>
      rw [SortedMap.find?_insert] at found
      split at found
      · next same =>
          obtain rfl := Option.some.inj found
          exact same ▸ sound.placed _ _ commitId commit here made own
      · exact sound.placed place module commitId commit found made own
  | addOrganization => exact sound.placed place module commitId commit found made own
  | eraseOrganization => exact sound.placed place module commitId commit found made own

theorem Change.labels (numbered : s.Numbered) (sound : s.Sound) (change : Change s t)
    (room : t.nextId ≤ 2 ^ 128) {place : LabelPlace} {commitId : String}
    (points : t.labels.find? place = some commitId) :
    ∃ commit, t.commits.find? commitId = some commit ∧ commit.registry = place.registry ∧
      commit.moduleId = place.moduleId := by
  cases change with
  | addModule => exact sound.labels place commitId points
  | addCommit kept digest =>
      have old : s.Keeps commitId := .inr (.inr (.inr ⟨place, commitId, points, .inr rfl⟩))
      have other := numbered.idText_ne_of_keeps le_rfl room old
      obtain ⟨commit, made, fits⟩ := sound.labels place commitId points
      refine ⟨commit, ?_, fits⟩
      change (s.commits.insert _ _).find? commitId = some commit
      rw [SortedMap.find?_insert, if_neg other.symm, made]
  | setLabel kept made same name =>
      change (s.labels.insert _ _).find? place = some commitId at points
      rw [SortedMap.find?_insert] at points
      split at points
      · next here =>
          obtain rfl := Option.some.inj points
          obtain ⟨owner, module, found, registry, own⟩ := kept
          have placed := sound.placed owner module _ _ found made (own.trans same.symm)
          subst here
          exact ⟨_, made, placed.symm.trans registry, same⟩
      · exact sound.labels place commitId points
  | setState => exact sound.labels place commitId points
  | addOrganization => exact sound.labels place commitId points
  | eraseOrganization => exact sound.labels place commitId points

/-! ## All states -/

theorem sound_empty : empty.Sound where
  distinct := .nil
  isId _ member := absurd member List.not_mem_nil
  labels _ _ points := nomatch points
  placed _ _ _ _ found := nomatch found

theorem Change.sound (numbered : s.Numbered) (sound : s.Sound) (change : Change s t)
    (room : t.nextId ≤ 2 ^ 128) : t.Sound where
  distinct := change.nodup_ids numbered sound.distinct room
  isId _ member := (numbered.change change).isId room member
  labels _ _ points := change.labels numbered sound room points
  placed _ _ _ _ found made own := change.placed numbered sound room found made own

theorem sound_of_changes (changes : empty.Changes s) (room : s.nextId ≤ 2 ^ 128) : s.Sound := by
  induction changes with
  | refl => exact sound_empty
  | tail earlier change ih =>
      have sound := ih (change.nextId_le.trans room)
      exact change.sound (numbered_empty.changes earlier) sound room

end Store

/-- What registries keep fits together, as long as there were ids for all of it. -/
theorem MemoryRegistry.consistent_of_reachable {r : MemoryRegistry} (reachable : r.Reachable)
    (room : r.store.nextId ≤ 2 ^ 128) : r.store.Consistent :=
  (Store.sound_of_changes reachable.store_changes room).toConsistent

/-- A module that is put in again has another id, and what was published of it before stays. -/
theorem MemoryRegistry.consistent_of_seeded_again : ∃ r : MemoryRegistry, r.Reachable ∧
    r.store.nextId ≤ 2 ^ 128 ∧
    (r.store.modules.find? ⟨"r.dev", "acme", "a"⟩).map (·.id) = some (Store.idText 3) ∧
    r.store.labels.find? ⟨"r.dev", Store.idText 1, "main"⟩ = some (Store.idText 2) ∧
    r.store.Consistent := by
  let ref : ModuleRef := ⟨"acme", "a"⟩
  let seeded := (empty.seedModule "r.dev" ref "main").2
  let published := (client.upload "r.dev" [⟨ref, [], [], none⟩] [] seeded).2
  have reachable : (published.seedModule "r.dev" ref "main").2.Reachable :=
    .tail (.tail (.single (.seedModule empty "r.dev" ref "main"))
      (.upload seeded "r.dev" [⟨ref, [], [], none⟩] [])) (.seedModule published "r.dev" ref "main")
  have room : (published.seedModule "r.dev" ref "main").2.store.nextId ≤ 2 ^ 128 := by decide
  exact ⟨_, reachable, room, by decide, by decide, consistent_of_reachable reachable room⟩

end SchemaModules
