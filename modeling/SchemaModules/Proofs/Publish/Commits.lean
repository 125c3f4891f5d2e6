import SchemaModules.Proofs.Bucket.Provided
import SchemaModules.Proofs.Publish.FirstUpload

/-! # What an upload returns and stores

An upload that succeeds returns a commit for each content, and registries keep that commit: with the
digest of the module, at the time that is returned, under an id that is new (`commits_of_upload`).
-/

namespace SchemaModules

open Store (idText)

/-- A commit that was returned for content is kept: under a new id, for the module of its name on a
registry, with the digest of the content and the time that the commit has. -/
structure Content.IsPublished (content : Content) (commit : Commit) (registry : String)
    (r last : MemoryRegistry) : Prop where
  name : commit.key.fullName = content.fullName
  set : commit.key.commitId ≠ CommitId.nil
  fresh : ∀ id, r.store.Keeps id → commit.key.commitId.text ≠ id
  kept : ∃ module stored,
    last.store.modules.find? (content.fullName.ref.on registry) = some module ∧
    last.store.commits.find? commit.key.commitId.text = some stored ∧
    stored.registry = registry ∧ stored.moduleId = module.id ∧
    commit.key.digest = .ok stored.digest ∧ content.module.digest = .ok stored.digest ∧
    commit.createTime = .ok stored.createTime

namespace Publishing

open MemoryRegistry (client)

variable {publicRegistry registry : String} {s : ModuleSet} {options : PublishOptions}
  {contents : List Content} {r last : MemoryRegistry} {commits : List Commit}

/-- If publishing succeeds, contents were resolved and then published from the next number on. -/
theorem publish_done
    (done : outcome (publish client publicRegistry s options registry contents) r =
      (.ok commits, last))
    (faithful : r.omissions = []) (positive : 0 < r.store.nextId) (room : last.store.InRange) :
    ∃ labels, List.Forall₂ (fun content commit => ∃ upload module n,
        Content.toUpload labels options content = .ok upload ∧
        last.store.findModule registry content.fullName.ref = .ok module ∧
        r.store.nextId ≤ n ∧ n < 2 ^ 128 ∧ content.CommittedAs commit upload n ∧
        last.store.commits.find? (idText n) = some (Store.stored registry upload module n))
        contents commits ∧
      commits.Pairwise fun a b => a.key.commitId.value.toNat < b.key.commitId.value.toNat := by
  obtain ⟨modules, labels, uploads, returned, -, -, made, uploaded, read⟩ :=
    parts_of_publish done faithful
  set mid := r.store.settle registry options (contents.map (·.fullName))
  have grown : r.store.nextId ≤ mid.nextId :=
    (Store.changes_settle registry options (contents.map (·.fullName)) r.store).nextId_le
  obtain ⟨all, found, each, ordered⟩ :=
    Content.reconcile_upload made uploaded (Nat.lt_of_lt_of_le positive grown) room
  obtain rfl : all = commits := Except.ok.inj (found.symm.trans read)
  refine ⟨labels, each.imp ?_, ordered⟩
  rintro content commit ⟨upload, module, n, file, place, later, rest⟩
  refine ⟨upload, module, n, file, ?_, grown.trans later, rest⟩
  rw [Store.findModule_eq_ok_iff] at place ⊢
  rwa [Store.modules_of_upload uploaded]

end Publishing

namespace ModuleSet

variable {s : ModuleSet} {publicRegistry : String} {options : PublishOptions}
  {r last : MemoryRegistry} {commits : List Commit}

/-- Commits of an upload are those of the contents of a set, one for each of its edited modules that
have a name, in the order of the set and of their ids, and registries keep them. -/
structure CommitsTo (s : ModuleSet) (options : PublishOptions) (contents : List Content)
    (commits : List Commit) (r last : MemoryRegistry) : Prop where
  selected : Content.select s options = .ok contents
  modules : contents.map (·.module) = s.localContent.filter (·.fullName.isSome)
  each : List.Forall₂ (fun content commit => ∃ registry,
    Content.primaryRegistry contents = .ok registry ∧
    content.module.fullName = some content.fullName ∧
    content.IsPublished commit registry r last) contents commits
  ordered : commits.Pairwise fun a b => a.key.commitId.value.toNat < b.key.commitId.value.toNat

/-- An upload that succeeds returns the commits of the contents of the set, and all that they say is
kept so. The modules of the set may be made in any way. Registries may have come to any state, but
leave nothing out of their answers. -/
theorem commits_of_upload (built : s.IsBuilt) (made : ∀ m ∈ s.modules, m.IsMade)
    (reachable : r.Reachable) (faithful : r.omissions = [])
    (done : Publishing.outcome (s.upload MemoryRegistry.client publicRegistry options) r =
      (.ok commits, last))
    (room : last.store.InRange) : ∃ contents, s.CommitsTo options contents commits r last := by
  rcases s.upload_cases MemoryRegistry.client publicRegistry options with
    ⟨registry, contents, publishes⟩ | ⟨result, same, vain⟩
  · rw [publishes.upload_eq] at done
    obtain ⟨labels, each, ordered⟩ :=
      Publishing.publish_done done faithful reachable.numbered.positive room
    obtain ⟨modules, names⟩ :=
      Content.modules_of_ofModules (Content.ofModules_of_select publishes.selected)
    refine ⟨contents, publishes.selected, modules, ?_, ordered⟩
    have known : ∀ content ∈ contents, content.module.fullName = some content.fullName ∧
        content.module.isLocal = true ∧ content.module.IsMade := by
      intro content member
      have among : content.module ∈ contents.map (·.module) := List.mem_map_of_mem member
      rw [modules] at among
      have selected := (List.mem_filter.mp among).1
      exact ⟨names content member, built.isLocal_of_mem_localContent selected,
        made content.module (List.mem_filter.mp selected).1⟩
    apply ((List.forall₂_and_left contents commits).mpr ⟨known, each⟩).imp
    rintro content commit ⟨⟨named, here, fromBucket⟩, upload, module, n, uploaded, place, later,
      small, committed, kept⟩
    obtain ⟨files, read, equal⟩ := Outcome.bind_eq_ok_iff.mp uploaded
    have holds : upload.files = files := by rw [← Outcome.pure_eq_ok_iff.mp equal]
    have id : commit.key.commitId.text = idText n := by
      rw [committed.id, Store.text_commitId small]
    have digest := fromBucket.digest_of_files here (Outcome.mapError_eq_ok_iff.mp read)
    rw [← holds] at digest
    refine ⟨registry, publishes.primary, named, committed.name, commit.key.commitId_ne_nil, ?_, ?_⟩
    · intro other before
      rw [id]
      exact reachable.numbered.idText_ne_of_keeps later small before
    · have dated : commit.createTime = .ok (Store.stored registry upload module n).createTime := by
        simpa only [Store.stored] using committed.time
      exact ⟨module, Store.stored registry upload module n, Store.findModule_eq_ok_iff.mp place,
        id ▸ kept, rfl, rfl, committed.digest, digest, dated⟩
  · rw [same, Publishing.outcome_given] at done
    obtain ⟨rfl, selected⟩ := vain commits (congrArg Prod.fst done)
    obtain ⟨modules, -⟩ := Content.modules_of_ofModules (Content.ofModules_of_select selected)
    exact ⟨[], selected, modules, .nil, .nil⟩

/-- A module and the one that it depends on, each with a file, are created and uploaded together. The
commits of both are kept. -/
theorem commits_of_created_modules : ∃ (s : ModuleSet) (options : PublishOptions)
    (commits : List Commit) (last : MemoryRegistry), s.IsBuilt ∧ (∀ m ∈ s.modules, m.IsMade) ∧
      (s.localContent.map (·.files)) = [.ok [("a.proto", [1])], .ok [("b.proto", [2])]] ∧
      MemoryRegistry.empty.Reachable ∧ MemoryRegistry.empty.omissions = [] ∧
      Publishing.outcome (s.upload MemoryRegistry.client "buf.build" options) .empty =
        (.ok commits, last) ∧
      last.store.InRange ∧ commits.length = 2 ∧
      ∃ contents, s.CommitsTo options contents commits .empty last := by
  let name : FullName := ⟨"r.dev", "acme", "a", by decide, by decide, by decide⟩
  let depName : FullName := ⟨"r.dev", "acme", "b", by decide, by decide, by decide⟩
  let m := Module.edited "a" (MemoryBucket.empty.insertValid "a.proto" [1]).toBucket (some name) true
  let dep := Module.edited "b" (MemoryBucket.empty.insertValid "b.proto" [2]).toBucket
    (some depName) false
  have apart : m.opaqueId ≠ dep.opaqueId := by decide
  have made : ∀ member ∈ (pair m dep).modules, member.IsMade := by
    intro member among
    rcases List.mem_pair.mp among with rfl | rfl
    · exact .edited "a" (.memory (.insertValid .empty "a.proto" [1])) (some name) true
    · exact .edited "b" (.memory (.insertValid .empty "b.proto" [2])) (some depName) false
  have read : m.files = .ok [("a.proto", [1])] := rfl
  have depRead : dep.files = .ok [("b.proto", [2])] := rfl
  have selected : (pair m dep).localContent = [m, dep] :=
    localContent_pair_both apart rfl rfl rfl rfl
  obtain ⟨commits, last, run, counted, room, -⟩ := upload_first_pair apart
    (rfl : m.fullName = some name) (rfl : dep.fullName = some depName) rfl rfl rfl rfl rfl
    read depRead "buf.build"
  refine ⟨pair m dep, { createMissing := true }, commits, last, isBuilt_pair apart, made, ?_, .refl,
    rfl, run, room, counted, commits_of_upload (isBuilt_pair apart) made .refl rfl run room⟩
  rw [selected, List.map_cons, List.map_cons, List.map_nil, read, depRead]

end ModuleSet

end SchemaModules
