import SchemaModules.Proofs.Publish.Commits
import SchemaModules.Proofs.Publish.Retry
import SchemaModules.Proofs.Registry.Consistency
import SchemaModules.Proofs.Registry.Creation

/-! # Labels after an upload

Contents are placed on labels of their own modules, and these are distinct, so that none of them
takes a label of another (`Content.placed_of_publishAll`). After an upload each label that is to be
applied points to the commit of its content, and all others are as they were
(`ModuleSet.labels_of_upload`).
-/

namespace SchemaModules

open Store (idText)

/-- The labels that content is placed on: its own or, if it has none, the default one of its
module. -/
def UploadContent.labelsOn (content : UploadContent) (module : RegistryModule) : List String :=
  if content.labels = [] then [module.defaultLabel] else content.labels

namespace Store

variable {registry : String} {s : Store} {place : LabelPlace}

/-! ## What is placed and what stays -/

theorem find?_setLabels_of_others {moduleId : String} {names : List String}
    (others : ∀ name ∈ names, ⟨registry, moduleId, name⟩ ≠ place) (commitId : String) :
    (s.setLabels registry moduleId commitId names).labels.find? place = s.labels.find? place := by
  induction names generalizing s with
  | nil => rfl
  | cons name rest ih =>
      obtain ⟨here, later⟩ := List.forall_mem_cons.mp others
      exact (ih (s := s.setLabel registry moduleId commitId name) later).trans
        (s.labels.find?_insert_of_ne here.symm commitId)

theorem find?_setLabels_of_mem {name : String} {names : List String} (member : name ∈ names)
    (moduleId commitId : String) :
    (s.setLabels registry moduleId commitId names).labels.find? ⟨registry, moduleId, name⟩ =
      some commitId := by
  induction names generalizing s with
  | nil => exact absurd member List.not_mem_nil
  | cons first rest ih =>
      by_cases again : name ∈ rest
      · exact ih (s := s.setLabel registry moduleId commitId first) again
      · obtain rfl := (List.mem_cons.mp member).resolve_right again
        have others : ∀ other ∈ rest,
            (⟨registry, moduleId, other⟩ : LabelPlace) ≠ ⟨registry, moduleId, name⟩ := by
          intro other among same
          obtain rfl : other = name := congrArg LabelPlace.name same
          exact again among
        apply (find?_setLabels_of_others (s := s.setLabel registry moduleId commitId name) others
          commitId).trans
        exact (SortedMap.find?_insert ..).trans (if_pos rfl)

theorem find?_publish_of_others {content : UploadContent} {module : RegistryModule}
    (others : ∀ name ∈ content.labelsOn module, ⟨registry, module.id, name⟩ ≠ place) :
    (s.publish registry content module).2.labels.find? place = s.labels.find? place := by
  rw [publish_snd]
  exact find?_setLabels_of_others others _

theorem find?_publish_of_mem {content : UploadContent} {module : RegistryModule} {name : String}
    (member : name ∈ content.labelsOn module) :
    (s.publish registry content module).2.labels.find? ⟨registry, module.id, name⟩ =
      some (idText s.nextId) := by
  rw [publish_snd]
  exact find?_setLabels_of_mem member ..

theorem find?_publishAll_of_others {pairs : List (UploadContent × RegistryModule)}
    (others : ∀ pair ∈ pairs, ∀ name ∈ pair.1.labelsOn pair.2,
      ⟨registry, pair.2.id, name⟩ ≠ place) :
    (publishAll registry pairs s).2.labels.find? place = s.labels.find? place := by
  induction pairs generalizing s with
  | nil => rfl
  | cons pair rest ih =>
      obtain ⟨here, later⟩ := List.forall_mem_cons.mp others
      rw [publishAll_cons, ih later, find?_publish_of_others here]

end Store

namespace Content

/-- Contents that were published for distinct modules are on their labels at the end. -/
theorem placed_of_publishAll {registry : String}
    {P : Content → UploadContent × RegistryModule → Prop} {contents : List Content}
    {pairs : List (UploadContent × RegistryModule)} {s : Store} {commits : List Commit}
    (each : List.Forall₂ P contents pairs) (distinct : (pairs.map (·.2.id)).Nodup)
    (positive : 0 < s.nextId) (room : (Store.publishAll registry pairs s).2.InRange)
    (read : ((contents.zip (Store.publishAll registry pairs s).1).mapM fun pair =>
      pair.1.commit pair.2) = .ok commits) :
    List.Forall₂ (fun content commit => commit.key.fullName = content.fullName ∧
      ∃ pair, P content pair ∧ ∀ name ∈ pair.1.labelsOn pair.2,
        (Store.publishAll registry pairs s).2.labels.find? ⟨registry, pair.2.id, name⟩ =
          some commit.key.commitId.text) contents commits := by
  induction each generalizing s commits with
  | nil =>
      obtain rfl := Outcome.pure_eq_ok_iff.mp read
      exact .nil
  | @cons content pair contents pairs holds each ih =>
      obtain ⟨upload, module⟩ := pair
      obtain ⟨once, others⟩ := List.nodup_cons.mp distinct
      rw [Store.publishAll_cons] at room read ⊢
      have following : (s.publish registry upload module).2.nextId = s.nextId + 1 :=
        Store.nextId_publish s registry upload module
      have small : s.nextId < 2 ^ 128 := by
        have bounded := room
        rw [Store.InRange, Store.nextId_publishAll, following] at bounded
        omega
      rw [List.zip_cons_cons, List.mapM_cons] at read
      obtain ⟨commit, here, remaining⟩ := Outcome.bind_eq_ok_iff.mp read
      obtain ⟨rest, later, equal⟩ := Outcome.bind_eq_ok_iff.mp remaining
      obtain rfl := Outcome.pure_eq_ok_iff.mp equal
      obtain ⟨same, found, committed⟩ := commit_answer content upload module positive small
      obtain rfl : same = commit := Except.ok.inj (found.symm.trans here)
      refine .cons ⟨committed.name, (upload, module), holds, ?_⟩
        (ih others (following ▸ Nat.succ_pos _) room later)
      intro name member
      -- What is published later is of other modules.
      have apart : ∀ other ∈ pairs, ∀ label ∈ other.1.labelsOn other.2,
          (⟨registry, other.2.id, label⟩ : LabelPlace) ≠ ⟨registry, module.id, name⟩ := by
        intro other among label _ taken
        exact once (List.mem_map.mpr ⟨other, among, congrArg LabelPlace.moduleId taken⟩)
      rw [Store.find?_publishAll_of_others apart, Store.find?_publish_of_mem member, committed.id,
        Store.text_commitId small]

end Content

/-! ## Which labels are applied -/

/-- A label is applied to a module: tags together with the default label, otherwise the given labels,
otherwise the default label. -/
def PublishOptions.Applies (options : PublishOptions) (module : RegistryModule) (label : String) :
    Prop :=
  if options.tags ≠ [] then label ∈ options.tags ∨ label = module.defaultLabel
  else if options.labels ≠ [] then label ∈ options.labels
  else label = module.defaultLabel

namespace Content

variable {options : PublishOptions} {modules : List RegistryModule} {labels : List String}

/-- Modules that tags are applied to have one default label. -/
theorem labels_of_tags (tagged : options.tags ≠ [])
    (labelled : Content.labels modules options = .ok labels) (some : modules ≠ []) :
    ∃ default, (∀ module ∈ modules, module.defaultLabel = default) ∧
      labels = if default ∈ options.tags then options.tags else options.tags ++ [default] := by
  have among : ∀ module ∈ modules,
      module.defaultLabel ∈ SortedMap.sortedSet (modules.map (·.defaultLabel)) :=
    fun module member => (SortedMap.mem_sortedSet _ _).mpr (List.mem_map_of_mem member)
  unfold Content.labels at labelled
  rw [if_neg tagged] at labelled
  split at labelled
  · next none =>
      obtain ⟨module, member⟩ := List.exists_mem_of_ne_nil modules some
      rw [none] at among
      exact absurd (among module member) List.not_mem_nil
  · next default only =>
      rw [only] at among
      exact ⟨default, fun module member => List.mem_singleton.mp (among module member),
        (Except.ok.inj labelled).symm⟩
  · cases labelled

/-- Modules with several default labels cannot be tagged. -/
theorem labels_of_divergent (tagged : options.tags ≠ []) {a b : RegistryModule}
    (first : a ∈ modules) (second : b ∈ modules) (apart : a.defaultLabel ≠ b.defaultLabel) :
    Content.labels modules options =
      .error (.divergentDefaultLabels (SortedMap.sortedSet (modules.map (·.defaultLabel)))) := by
  have among : ∀ module ∈ modules,
      module.defaultLabel ∈ SortedMap.sortedSet (modules.map (·.defaultLabel)) :=
    fun module member => (SortedMap.mem_sortedSet _ _).mpr (List.mem_map_of_mem member)
  unfold Content.labels
  rw [if_neg tagged]
  split
  · next none =>
      rw [none] at among
      exact absurd (among a first) List.not_mem_nil
  · next default only =>
      rw [only] at among
      exact absurd ((List.mem_singleton.mp (among a first)).trans
        (List.mem_singleton.mp (among b second)).symm) apart
  · rfl

/-- Content that is uploaded with the labels of all contents is placed on those that are applied to
its module. -/
theorem mem_labelsOn_iff (labelled : Content.labels modules options = .ok labels)
    {module : RegistryModule} (member : module ∈ modules) {upload : UploadContent}
    (carried : upload.labels = labels) {name : String} :
    name ∈ upload.labelsOn module ↔ options.Applies module name := by
  unfold UploadContent.labelsOn PublishOptions.Applies
  rw [carried]
  by_cases tagged : options.tags = []
  · rw [Content.labels, if_pos tagged] at labelled
    obtain rfl := Except.ok.inj labelled
    by_cases given : options.labels = []
    · simp [tagged, given]
    · simp [tagged, given]
  · obtain ⟨default, shared, rfl⟩ :=
      labels_of_tags tagged labelled (List.ne_nil_of_mem member)
    rw [shared module member, if_pos tagged]
    by_cases known : default ∈ options.tags
    · rw [if_pos known, if_neg tagged, iff_self_or]
      rintro rfl
      exact known
    · rw [if_neg known, if_neg (by simp), List.mem_append, List.mem_singleton]

theorem labels_of_toUpload {content : Content} {upload : UploadContent}
    (made : toUpload labels options content = .ok upload) : upload.labels = labels := by
  obtain ⟨files, -, equal⟩ := Outcome.bind_eq_ok_iff.mp made
  obtain rfl := Outcome.pure_eq_ok_iff.mp equal
  rfl

theorem reads_of_reconcile {contents : List Content} {returned : List UploadedCommit}
    {commits : List Commit} (read : reconcile contents returned = .ok commits) :
    ((contents.zip returned).mapM fun pair => pair.1.commit pair.2) = .ok commits := by
  unfold reconcile at read
  exact (Outcome.guard_eq_ok_iff.mp read).2

end Content

/-- Modules that were got by distinct names have distinct ids. -/
theorem Store.nodup_ids_of_getModules {s : Store} {registry : String} {refs : List ModuleRef}
    {modules : List RegistryModule} (sound : s.ids.Nodup) (distinct : refs.Nodup)
    (got : s.getModules registry refs = .ok modules) : (modules.map (·.id)).Nodup := by
  refine List.pairwise_map.mpr
    (Outcome.pairwise_of_forall₂ (Outcome.mapM_eq_ok_iff.mp got) distinct ?_)
  intro ref module other later found again apart same
  rw [findModule_eq_ok_iff] at found again
  exact apart (ModuleRef.on_injective registry (place_eq_of_id sound found again same))

theorem Publishing.getModules_of_resolution {registry : String} {contents : List Content}
    {s : Store} {modules : List RegistryModule}
    (found : resolution registry contents s = .ok modules) :
    s.getModules registry (contents.map (·.fullName.ref)) = .ok modules := by
  obtain ⟨got, asked, checked⟩ := Outcome.bind_eq_ok_iff.mp found
  obtain ⟨-, -, equal⟩ := Outcome.bind_eq_ok_iff.mp checked
  obtain rfl := Outcome.pure_eq_ok_iff.mp equal
  exact Outcome.mapError_eq_ok_iff.mp asked

/-! ## The labels of an upload -/

/-- Where the module of a content is kept. -/
def Content.place (content : Content) : ModulePlace :=
  content.fullName.ref.on content.fullName.registry

/-- A place of a label is one that content takes, as a store has its module. -/
def Content.TakesLabel (content : Content) (options : PublishOptions) (s : Store)
    (place : LabelPlace) : Prop :=
  ∃ module, s.modules.find? content.place = some module ∧ options.Applies module place.name ∧
    place = ⟨content.fullName.registry, module.id, place.name⟩

/-- Every label that is applied to a content of a set points to its commit, and all other labels are
as they were. Where there are tags, the modules of contents have one default label. -/
structure ModuleSet.LabelsTo (s : ModuleSet) (options : PublishOptions) (contents : List Content)
    (commits : List Commit) (r last : MemoryRegistry) : Prop where
  selected : Content.select s options = .ok contents
  shared : options.tags ≠ [] → ∃ default, ∀ content ∈ contents, ∀ module,
    last.store.modules.find? content.place = some module → module.defaultLabel = default
  each : List.Forall₂ (fun content commit => commit.key.fullName = content.fullName ∧
    (∃ module, last.store.modules.find? content.place = some module) ∧
    ∀ place, content.TakesLabel options last.store place →
      last.store.labels.find? place = some commit.key.commitId.text) contents commits
  others : ∀ place, (∀ content ∈ contents, ¬ content.TakesLabel options last.store place) →
    last.store.labels.find? place = r.store.labels.find? place

namespace ModuleSet

open MemoryRegistry (client)

variable {s : ModuleSet} {publicRegistry registry : String} {options : PublishOptions}
  {contents : List Content} {r last : MemoryRegistry} {commits : List Commit}

/-- Contents that were published are labelled. -/
theorem Publishes.labelsTo (publishes : s.Publishes options registry contents) (built : s.IsBuilt)
    (reachable : r.Reachable) (faithful : r.omissions = [])
    (done : Publishing.outcome
      (Publishing.publish client publicRegistry s options registry contents) r =
        (.ok commits, last)) (room : last.store.InRange) :
    s.LabelsTo options contents commits r last := by
  obtain ⟨modules, labels, uploads, returned, found, labelled, made, uploaded, read⟩ :=
    Publishing.parts_of_publish done faithful
  set mid := r.store.settle registry options (contents.map (·.fullName))
  have changes : Store.empty.Changes mid := reachable.store_changes.trans
    (Store.changes_settle registry options (contents.map (·.fullName)) r.store)
  have got := Publishing.getModules_of_resolution found
  obtain ⟨again, gotAgain, published⟩ := Store.upload_eq_ok_iff.mp uploaded
  rw [Content.refs_of_toUpload made] at gotAgain
  obtain rfl : modules = again := Except.ok.inj (got.symm.trans gotAgain)
  have places := List.forall₂_map_left_iff.mp (Outcome.mapM_eq_ok_iff.mp got)
  have files := Outcome.mapM_eq_ok_iff.mp made
  have pairs := Outcome.forall₂_zip files places
  obtain rfl : (Store.publishAll registry (uploads.zip modules) mid).1 = returned :=
    congrArg Prod.fst published
  have stored : (Store.publishAll registry (uploads.zip modules) mid).2 = last.store :=
    congrArg Prod.snd published
  have counted : last.store.nextId = mid.nextId + (uploads.zip modules).length := by
    rw [← stored, Store.nextId_publishAll]
  have small : mid.nextId ≤ 2 ^ 128 := by
    rw [Store.InRange, counted] at room
    omega
  have distinct : ((uploads.zip modules).map (·.2.id)).Nodup := by
    have ids := Store.nodup_ids_of_getModules (Store.sound_of_changes changes small).distinct
      (publishes.nodup_ref built) got
    have sized : modules.length ≤ uploads.length :=
      (places.length_eq.symm.trans files.length_eq).le
    rw [← List.map_snd_zip sized, List.map_map] at ids
    exact ids
  have placed := Content.placed_of_publishAll pairs distinct
    (Store.numbered_empty.changes changes).positive (stored ▸ room)
    (Content.reads_of_reconcile read)
  rw [stored] at placed
  have kept := Store.modules_of_upload uploaded
  have known : ∀ content ∈ contents, content.fullName.registry = registry ∧
      ∃ module ∈ modules, last.store.modules.find? content.place = some module := by
    intro content member
    have here := Content.registry_of_primaryRegistry publishes.primary content member
    obtain ⟨module, among, found⟩ := Outcome.exists_of_forall₂ places.flip member
    refine ⟨here, module, among, ?_⟩
    rw [kept, Content.place, here]
    exact Store.findModule_eq_ok_iff.mp found
  refine ⟨publishes.selected, ?_, ?_, ?_⟩
  · intro tagged
    have some : modules ≠ [] := by
      rintro rfl
      exact publishes.filled (List.eq_nil_of_length_eq_zero places.length_eq)
    obtain ⟨default, shared, -⟩ := Content.labels_of_tags tagged labelled some
    refine ⟨default, fun content member own found => ?_⟩
    obtain ⟨-, module, among, kept⟩ := known content member
    obtain rfl := Option.some.inj (kept.symm.trans found)
    exact shared module among
  · apply ((List.forall₂_and_left contents commits).mpr ⟨known, placed⟩).imp
    rintro content commit ⟨⟨here, module, among, found⟩, named, ⟨upload, own⟩, ⟨file, place⟩, on⟩
    refine ⟨named, ⟨module, found⟩, ?_⟩
    rintro label ⟨taken, again, applies, same⟩
    obtain rfl := Option.some.inj (again.symm.trans found)
    rw [kept, Content.place, here] at found
    obtain rfl : own = taken :=
      Except.ok.inj (place.symm.trans (Store.findModule_eq_ok_iff.mpr found))
    rw [same, here]
    exact on label.name
      ((Content.mem_labelsOn_iff labelled among (Content.labels_of_toUpload file)).mpr applies)
  · intro label free
    rw [← stored, Store.find?_publishAll_of_others, (Store.extends_settle ..).labels]
    rintro ⟨upload, module⟩ member name listed rfl
    obtain ⟨content, among, file, place⟩ := Outcome.exists_of_forall₂ pairs member
    obtain ⟨here, -⟩ := known content among
    refine free content among ⟨module, ?_, ?_, ?_⟩
    · rw [kept, Content.place, here]
      exact Store.findModule_eq_ok_iff.mp place
    · exact (Content.mem_labelsOn_iff labelled (List.of_mem_zip member).2
        (Content.labels_of_toUpload file)).mp listed
    · rw [here]

/-- After an upload that succeeds, each content is on the labels that are applied to it and all other
labels are as they were; after one that fails all are. Where tags are given and the modules of
contents have several default labels, it fails with these. -/
theorem labels_of_upload (built : s.IsBuilt) (reachable : r.Reachable)
    (faithful : r.omissions = []) {result : Except PublishError (List Commit)}
    (run : Publishing.outcome (s.upload client publicRegistry options) r = (result, last))
    (room : last.store.InRange) :
    (∀ commits, result = .ok commits → ∃ contents, s.LabelsTo options contents commits r last) ∧
      (∀ error, result = .error error → last.store.labels = r.store.labels) ∧
      ∀ registry contents modules mid, s.Publishes options registry contents →
        Publishing.outcome (Publishing.resolve client registry contents options) r =
          (.ok modules, mid) →
        options.tags ≠ [] → (∃ a ∈ modules, ∃ b ∈ modules, a.defaultLabel ≠ b.defaultLabel) →
        ∃ defaults, result = .error (.divergentDefaultLabels defaults) ∧
          defaults.Pairwise (· < ·) ∧
          ∀ label, label ∈ defaults ↔ ∃ module ∈ modules, module.defaultLabel = label := by
  refine ⟨?_, ?_, ?_⟩
  · rintro commits rfl
    rcases s.upload_cases client publicRegistry options with
      ⟨registry, contents, publishes⟩ | ⟨result, same, vain⟩
    · rw [publishes.upload_eq] at run
      exact ⟨contents, publishes.labelsTo built reachable faithful run room⟩
    · rw [same, Publishing.outcome_given] at run
      obtain ⟨rfl, selected⟩ := vain commits (congrArg Prod.fst run)
      obtain rfl : r = last := congrArg Prod.snd run
      exact ⟨[], selected, fun _ => ⟨"", fun _ none => absurd none List.not_mem_nil⟩, .nil,
        fun _ _ => rfl⟩
  · rintro error rfl
    rcases s.upload_cases client publicRegistry options with
      ⟨registry, contents, publishes⟩ | ⟨result, same, -⟩
    · rw [publishes.upload_eq] at run
      obtain ⟨done, operations, -, rfl⟩ :=
        Publishing.publish_stops run faithful reachable.numbered.positive room
      exact (Store.extends_settle ..).labels
    · rw [same] at run
      exact congrArg (fun r : MemoryRegistry => r.store.labels) (congrArg Prod.snd run).symm
  · rintro registry contents modules mid publishes resolved tagged ⟨a, first, b, second, apart⟩
    have stopped : Publishing.prepare publicRegistry s options registry contents modules =
        .error (.divergentDefaultLabels
          (SortedMap.sortedSet (modules.map (·.defaultLabel)))) := by
      unfold Publishing.prepare
      rw [Content.labels_of_divergent tagged first second apart]
      rfl
    rw [publishes.upload_eq, Publishing.publish, Publishing.outcome_bind_of_ok resolved, stopped,
      Publishing.outcome_error_bind] at run
    refine ⟨_, (congrArg Prod.fst run).symm, ?_, fun label => ?_⟩
    · exact SortedMap.keys_ascending _
    · rw [SortedMap.mem_sortedSet, List.mem_map]

/-- A module that is created and tagged is on the tag and on its default label. -/
theorem labels_of_tagged_module : ∃ (s : ModuleSet) (options : PublishOptions)
    (contents : List Content) (commit : Commit) (last : MemoryRegistry), s.IsBuilt ∧
      MemoryRegistry.empty.Reachable ∧ MemoryRegistry.empty.omissions = [] ∧
      options.tags = ["v1"] ∧
      Publishing.outcome (s.upload client "buf.build" options) .empty = (.ok [commit], last) ∧
      last.store.InRange ∧ s.LabelsTo options contents [commit] .empty last ∧
      ∀ label ∈ ["v1", "main"], last.store.labels.find? ⟨"r.dev", idText 1, label⟩ =
        some commit.key.commitId.text := by
  let name : FullName := ⟨"r.dev", "acme", "a", by decide, by decide, by decide⟩
  let depName : FullName := ⟨"q.dev", "acme", "b", by decide, by decide, by decide⟩
  let m := Module.edited "proto" MemoryBucket.empty.toBucket (some name) true
  let dep := Module.published depName ⟨1⟩ MemoryBucket.empty.toBucket none
  let options : PublishOptions := { createMissing := true, tags := ["v1"] }
  let contents : List Content := [⟨m, name⟩]
  let created := (Store.empty.addModule "r.dev" (Publishing.request options name)).1
  have apart : m.opaqueId ≠ dep.opaqueId := by decide
  have checked : options.check = .ok () := by
    have valid : IsLabelName "main" := by decide
    simp only [PublishOptions.check, options, checkLabelName, if_pos valid]
    rfl
  have publishes : (pair m dep).Publishes options "r.dev" contents :=
    publishes_pair apart (rfl : m.fullName = some name) rfl rfl
      (rfl : dep.fullName = some depName) rfl checked
  have federable : Content.checkFederation "buf.build" "r.dev" [⟨CommitId.text ⟨1⟩, "q.dev"⟩] =
      .ok () := by
    rfl
  have made : contents.mapM (Content.toUpload (Content.firstLabels options) options) =
      .ok [⟨name.ref, [], ["v1", "main"], none⟩] := by
    rfl
  have small : MemoryRegistry.empty.store.nextId + 2 * contents.length < 2 ^ 128 := by decide
  obtain ⟨commits, last, run, counted, handed, stays, -⟩ := publishes.upload_first
    (isBuilt_pair apart) rfl
    (Content.dependencyRefs_pair apart (rfl : dep.fullName = some depName) rfl (by decide))
    federable made rfl rfl (fun _ _ => rfl) (by decide) small
  have room : last.store.InRange := handed.trans_lt small
  obtain ⟨commit, rfl⟩ := List.length_eq_one_iff.mp counted
  obtain ⟨chosen, labelled⟩ :=
    (labels_of_upload (isBuilt_pair apart) .refl rfl run room).1 _ rfl
  obtain rfl : contents = chosen :=
    Except.ok.inj (publishes.selected.symm.trans labelled.selected)
  have kept : last.store.modules.find? (Content.place ⟨m, name⟩) = some created := by
    rw [stays]
    exact (Store.find?_addModule ..).trans (if_pos rfl)
  refine ⟨pair m dep, options, contents, commit, last, isBuilt_pair apart, .refl, rfl, rfl, run,
    room, labelled, fun label among => ?_⟩
  obtain ⟨⟨-, -, placed⟩, -⟩ := List.forall₂_cons.mp labelled.each
  refine placed ⟨"r.dev", idText 1, label⟩ ⟨created, kept, ?_, rfl⟩
  refine (if_pos (List.cons_ne_nil "v1" [])).mpr ?_
  change label ∈ ["v1"] ∨ label = "main"
  simpa using among

end ModuleSet

end SchemaModules
