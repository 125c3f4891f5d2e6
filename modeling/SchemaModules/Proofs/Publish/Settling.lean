import SchemaModules.Proofs.Publish.Resolution
import SchemaModules.Proofs.Registry.Reachable

/-! # What resolving does to registries

Resolving contents adds their missing modules one after another and touches nothing else
(`resolve_settles`). Interrupted, it has done so for the first of them, and going over these again
adds nothing (`settle_settle`).
-/

namespace SchemaModules

namespace Store

open Publishing (request)

variable {registry : String} {options : PublishOptions} {s : Store} {name : FullName}
  {place : ModulePlace} {module : RegistryModule}

/-- The store with the module of a name, which is created if it is missing. -/
def ensure (registry : String) (options : PublishOptions) (s : Store) (name : FullName) : Store :=
  if s.modules.contains (name.ref.on registry) then s
  else (s.addModule registry (request options name)).2

/-- The store with the modules of names, created one after another where they are missing. -/
def ensureAll (registry : String) (options : PublishOptions) (names : List FullName) (s : Store) :
    Store :=
  names.foldl (ensure registry options) s

/-- The store in which names have been resolved: missing modules are created if options say so. -/
def settle (registry : String) (options : PublishOptions) (names : List FullName) (s : Store) :
    Store :=
  if options.createMissing then s.ensureAll registry options names else s

/-! ## What is there stays there -/

/-- A store has the labels, commits and organizations of another, and its modules and more. What is
more is at places of a kind. -/
structure Extends (new : ModulePlace → Prop) (s t : Store) : Prop where
  labels : t.labels = s.labels
  commits : t.commits = s.commits
  organizations : t.organizations = s.organizations
  kept : ∀ place module, s.modules.find? place = some module → t.modules.find? place = some module
  added : ∀ place module, t.modules.find? place = some module →
    s.modules.find? place = some module ∨ s.modules.find? place = none ∧ new place

theorem Extends.refl (new : ModulePlace → Prop) (s : Store) : s.Extends new s where
  labels := rfl
  commits := rfl
  organizations := rfl
  kept _ _ found := found
  added _ _ found := .inl found

theorem Extends.trans {new : ModulePlace → Prop} {t u : Store} (first : s.Extends new t)
    (second : t.Extends new u) : s.Extends new u where
  labels := second.labels.trans first.labels
  commits := second.commits.trans first.commits
  organizations := second.organizations.trans first.organizations
  kept place module found := second.kept place module (first.kept place module found)
  added place module found := by
    rcases second.added place module found with earlier | ⟨missing, among⟩
    · exact first.added place module earlier
    · refine .inr ⟨?_, among⟩
      cases before : s.modules.find? place with
      | none => rfl
      | some other =>
          rw [first.kept place other before] at missing
          cases missing

theorem Extends.weaken {new wider : ModulePlace → Prop} {t : Store} (extended : s.Extends new t)
    (more : ∀ place, new place → wider place) : s.Extends wider t where
  labels := extended.labels
  commits := extended.commits
  organizations := extended.organizations
  kept := extended.kept
  added place module found :=
    (extended.added place module found).imp_right fun fresh => ⟨fresh.1, more place fresh.2⟩

theorem ensure_of_contains (known : s.modules.contains (name.ref.on registry) = true) :
    s.ensure registry options name = s :=
  if_pos known

theorem extends_ensure (registry : String) (options : PublishOptions) (s : Store)
    (name : FullName) :
    s.Extends (· = name.ref.on registry) (s.ensure registry options name) := by
  by_cases known : s.modules.contains (name.ref.on registry) = true
  · rw [ensure_of_contains known]
    exact .refl _ s
  · rw [ensure, if_neg known]
    have missing : s.modules.find? (name.ref.on registry) = none := by
      simpa [SortedMap.contains] using known
    refine ⟨rfl, rfl, rfl, ?_, ?_⟩
    · intro place module found
      simp only [addModule, request]
      rw [SortedMap.find?_insert, if_neg, found]
      rintro rfl
      rw [missing] at found
      cases found
    · intro place module found
      simp only [addModule, request] at found
      rw [SortedMap.find?_insert] at found
      by_cases same : place = name.ref.on registry
      · exact .inr ⟨same ▸ missing, same⟩
      · rw [if_neg same] at found
        exact .inl found

theorem extends_ensureAll (registry : String) (options : PublishOptions) (names : List FullName)
    (s : Store) :
    s.Extends (fun place => ∃ name ∈ names, place = name.ref.on registry)
      (s.ensureAll registry options names) := by
  induction names generalizing s with
  | nil => exact .refl _ s
  | cons name rest ih =>
      apply Extends.trans (t := s.ensure registry options name)
      · apply (extends_ensure registry options s name).weaken
        intro place same
        exact ⟨name, List.mem_cons_self, same⟩
      · apply (ih (s.ensure registry options name)).weaken
        rintro place ⟨other, member, same⟩
        exact ⟨other, List.mem_cons_of_mem _ member, same⟩

theorem extends_settle (registry : String) (options : PublishOptions) (names : List FullName)
    (s : Store) :
    s.Extends (fun place => ∃ name ∈ names, place = name.ref.on registry)
      (s.settle registry options names) := by
  unfold settle
  split
  · exact extends_ensureAll registry options names s
  · exact .refl _ s

theorem changes_settle (registry : String) (options : PublishOptions) (names : List FullName)
    (s : Store) : s.Changes (s.settle registry options names) := by
  have all : ∀ s : Store, s.Changes (s.ensureAll registry options names) := by
    induction names with
    | nil => exact fun _ => .refl
    | cons name rest ih =>
        intro s
        refine Relation.ReflTransGen.trans ?_ (ih (s.ensure registry options name))
        unfold ensure
        split
        · exact .refl
        · exact .single (.addModule s registry _)
  unfold settle
  split
  · exact all s
  · exact .refl

theorem contains_ensure (registry : String) (options : PublishOptions) (s : Store)
    (name : FullName) :
    (s.ensure registry options name).modules.contains (name.ref.on registry) = true := by
  by_cases known : s.modules.contains (name.ref.on registry) = true
  · rwa [ensure_of_contains known]
  · rw [ensure, if_neg known]
    simp only [addModule, request, SortedMap.contains]
    rw [SortedMap.find?_insert, if_pos rfl]
    rfl

theorem Extends.contains {new : ModulePlace → Prop} {t : Store} (extended : s.Extends new t)
    (known : s.modules.contains place = true) : t.modules.contains place = true := by
  obtain ⟨module, found⟩ := Option.isSome_iff_exists.mp known
  exact Option.isSome_iff_exists.mpr ⟨module, extended.kept place module found⟩

theorem contains_ensureAll {names : List FullName} (member : name ∈ names) (s : Store) :
    (s.ensureAll registry options names).modules.contains (name.ref.on registry) = true := by
  induction names generalizing s with
  | nil => cases member
  | cons first rest ih =>
      rcases List.mem_cons.mp member with rfl | later
      · exact (extends_ensureAll registry options rest _).contains
          (contains_ensure registry options s name)
      · exact ih later (s.ensure registry options first)

/-- Where all modules are there, none is created. -/
theorem ensureAll_of_contains {names : List FullName}
    (known : ∀ name ∈ names, s.modules.contains (name.ref.on registry) = true) :
    s.ensureAll registry options names = s := by
  induction names with
  | nil => rfl
  | cons name rest ih =>
      obtain ⟨here, later⟩ := List.forall_mem_cons.mp known
      rw [ensureAll, List.foldl_cons, ensure_of_contains here]
      exact ih later

/-- Resolving names goes on where it stopped if it is started again. -/
theorem settle_settle {done names : List FullName} (first : done <+: names) (s : Store) :
    (s.settle registry options done).settle registry options names =
      s.settle registry options names := by
  unfold settle
  split
  · obtain ⟨rest, rfl⟩ := first
    have again : (s.ensureAll registry options done).ensureAll registry options done =
        s.ensureAll registry options done :=
      ensureAll_of_contains fun name member => contains_ensureAll member s
    simp only [ensureAll, List.foldl_append] at again ⊢
    rw [again]
  · rfl

theorem ensure_of_findModule (found : s.findModule registry name.ref = .ok module) :
    s.ensure registry options name = s :=
  ensure_of_contains
    (Option.isSome_iff_exists.mpr ⟨module, findModule_eq_ok_iff.mp found⟩)

theorem Extends.findModule {new : ModulePlace → Prop} {t : Store} {ref : ModuleRef}
    (extended : s.Extends new t) (found : s.findModule registry ref = .ok module) :
    t.findModule registry ref = .ok module :=
  findModule_eq_ok_iff.mpr (extended.kept _ _ (findModule_eq_ok_iff.mp found))

end Store

namespace Publishing

open MemoryRegistry (client)

variable {registry : String} {options : PublishOptions}

variable {name : FullName} {r : MemoryRegistry}

theorem createModules_of_failure (registry : String) (options : PublishOptions) (name : FullName)
    {error : RegistryError} (failing : r.failureOf? .createModules = some error) :
    client.createModules registry [request options name] r =
      (.error error,
        { r with operations := r.operations ++ [.createModules registry [name.ref]] }) :=
  MemoryRegistry.perform_of_failure (.createModules registry [name.ref]) failing
    (MemoryRegistry.changing (Store.createModules registry [request options name]))

theorem createModules_of_contains (options : PublishOptions)
    (working : r.failureOf? .createModules = none)
    (known : r.store.modules.contains (name.ref.on registry) = true) :
    client.createModules registry [request options name] r =
      (.error (.alreadyExists name.ref.text),
        { r with operations := r.operations ++ [.createModules registry [name.ref]] }) := by
  have performed := MemoryRegistry.perform_of_success (.createModules registry [name.ref]) working
    (MemoryRegistry.changing (Store.createModules registry [request options name]))
  have existing : Store.createModules registry [request options name] r.store =
      .error (.alreadyExists name.ref.text) := by
    rw [Store.createModules_singleton]
    exact if_pos known
  simp only [MemoryRegistry.changing, existing] at performed
  exact performed

theorem createModules_of_missing (options : PublishOptions)
    (working : r.failureOf? .createModules = none)
    (missing : ¬ r.store.modules.contains (name.ref.on registry) = true) :
    client.createModules registry [request options name] r =
      (.ok [(r.store.addModule registry (request options name)).1],
        { r with
          store := (r.store.addModule registry (request options name)).2
          operations := r.operations ++ [.createModules registry [name.ref]] }) := by
  have performed := MemoryRegistry.perform_of_success (.createModules registry [name.ref]) working
    (MemoryRegistry.changing (Store.createModules registry [request options name]))
  have created : Store.createModules registry [request options name] r.store =
      .ok ([(r.store.addModule registry (request options name)).1],
        (r.store.addModule registry (request options name)).2) := by
    rw [Store.createModules_singleton]
    exact if_neg missing
  simp only [MemoryRegistry.changing, created] at performed
  exact performed

theorem getModules_of_success (working : r.failureOf? .getModules = none) (registry : String)
    (refs : List ModuleRef) :
    client.getModules registry refs r = (r.store.getModules registry refs,
      { r with operations := r.operations ++ [.getModules registry refs] }) :=
  MemoryRegistry.perform_of_success (.getModules registry refs) working
    (MemoryRegistry.reading (Store.getModules registry refs))

theorem getModules_of_failure {error : RegistryError}
    (failing : r.failureOf? .getModules = some error) (registry : String)
    (refs : List ModuleRef) :
    client.getModules registry refs r =
      (.error error, { r with operations := r.operations ++ [.getModules registry refs] }) :=
  MemoryRegistry.perform_of_failure (.getModules registry refs) failing
    (MemoryRegistry.reading (Store.getModules registry refs))

/-- Told that a module exists, it is got. -/
theorem createOrGet_of_existing {what : String} {noted : List Operation}
    (answer : client.createModules registry [request options name] r =
      (.error (.alreadyExists what), { r with operations := noted })) :
    ∃ result operations,
      outcome (createOrGet client registry options name) r =
        (result, { r with operations := operations }) ∧
      ((∃ module, r.store.findModule registry name.ref = .ok module ∧ result = .ok module) ∨
        (∃ error, result = .error (.registry error)) ∧
          (r.failureOf? .getModules ≠ none ∨
            ∃ error, r.store.findModule registry name.ref = .error error)) := by
  cases failing : r.failureOf? .getModules with
  | some error =>
      have got := getModules_of_failure (r := { r with operations := noted }) failing registry
        [name.ref]
      exact ⟨_, _, outcome_createOrGet_missing answer got, .inr ⟨⟨error, rfl⟩, .inl (by simp)⟩⟩
  | none =>
      have got := getModules_of_success (r := { r with operations := noted }) failing registry
        [name.ref]
      simp only [Store.getModules_singleton] at got
      cases found : r.store.findModule registry name.ref with
      | error error =>
          rw [found] at got
          exact ⟨_, _, outcome_createOrGet_missing answer got,
            .inr ⟨⟨error, rfl⟩, .inr ⟨error, rfl⟩⟩⟩
      | ok module =>
          rw [found] at got
          exact ⟨_, _, outcome_createOrGet_existed answer got, .inl ⟨module, rfl, rfl⟩⟩

/-- Creating or getting a module leaves it in the store, or it fails by the failure that is set and
leaves the store as it is. -/
theorem createOrGet_settles (registry : String) (options : PublishOptions) (name : FullName)
    (r : MemoryRegistry) : ∃ result t operations,
      outcome (createOrGet client registry options name) r =
        (result, { r with store := t, operations := operations }) ∧
      (t = r.store.ensure registry options name ∧
          (∃ module, t.findModule registry name.ref = .ok module ∧ result = .ok module) ∨
        t = r.store ∧ r.failure ≠ none ∧ ∃ error, result = .error (.registry error)) := by
  cases failing : r.failureOf? .createModules with
  | some error =>
      have set := MemoryRegistry.failure_ne_none (r := r) (by rw [failing]; simp)
      by_cases known : ∃ what, error = .alreadyExists what
      · -- The failure that is set can say that the module exists, whether it does or not.
        obtain ⟨what, rfl⟩ := known
        obtain ⟨result, operations, run, ends⟩ :=
          createOrGet_of_existing (createModules_of_failure registry options name failing)
        refine ⟨result, r.store, operations, run, ?_⟩
        rcases ends with ⟨module, found, rfl⟩ | ⟨failed, -⟩
        · exact .inl ⟨(Store.ensure_of_findModule found).symm, module, found, rfl⟩
        · exact .inr ⟨rfl, set, failed⟩
      · have refused := outcome_createOrGet_refused
          (createModules_of_failure registry options name failing)
          fun what same => known ⟨what, same⟩
        exact ⟨_, r.store, _, refused, .inr ⟨rfl, set, error, rfl⟩⟩
  | none =>
      by_cases known : r.store.modules.contains (name.ref.on registry) = true
      · obtain ⟨result, operations, run, ends⟩ :=
          createOrGet_of_existing (createModules_of_contains options failing known)
        refine ⟨result, r.store, operations, run, ?_⟩
        rcases ends with ⟨module, found, rfl⟩ | ⟨failed, set | ⟨error, missing⟩⟩
        · exact .inl ⟨(Store.ensure_of_findModule found).symm, module, found, rfl⟩
        · exact .inr ⟨rfl, MemoryRegistry.failure_ne_none set, failed⟩
        · obtain ⟨module, found⟩ := Option.isSome_iff_exists.mp known
          rw [Store.findModule_eq_ok_iff.mpr found] at missing
          cases missing
      · have created := outcome_createOrGet_created (createModules_of_missing options failing known)
        refine ⟨_, _, _, created, .inl ⟨(if_neg known).symm, _, ?_, rfl⟩⟩
        rw [Store.findModule_eq_ok_iff, Store.addModule, SortedMap.find?_insert]
        exact if_pos rfl

/-- Creating or getting the modules of contents settles the first of them; these are all, unless the
failure that is set strikes. -/
theorem createAll_settles (registry : String) (options : PublishOptions) (contents : List Content)
    (r : MemoryRegistry) : ∃ result done operations,
      outcome (contents.mapM fun content => createOrGet client registry options content.fullName)
        r = (result, { r with
          store := r.store.ensureAll registry options (done.map (·.fullName))
          operations := operations }) ∧
      done <+: contents ∧
      (done = contents ∧ (∃ modules,
          (r.store.ensureAll registry options (contents.map (·.fullName))).getModules registry
            (contents.map (·.fullName.ref)) = .ok modules ∧ result = .ok modules) ∨
        r.failure ≠ none ∧ ∃ error, result = .error (.registry error)) := by
  induction contents generalizing r with
  | nil => exact ⟨.ok [], [], r.operations, rfl, List.prefix_rfl, .inl ⟨rfl, [], rfl, rfl⟩⟩
  | cons content rest ih =>
      rw [List.mapM_cons]
      obtain ⟨first, t, noted, here, created | ⟨rfl, set, error, rfl⟩⟩ :=
        createOrGet_settles registry options content.fullName r
      · obtain ⟨rfl, module, found, rfl⟩ := created
        rw [outcome_bind_of_ok here]
        obtain ⟨later, done, operations, run, before, ends⟩ := ih { r with
          store := r.store.ensure registry options content.fullName, operations := noted }
        rcases ends with ⟨rfl, modules, got, rfl⟩ | ⟨set, error, rfl⟩
        · refine ⟨_, content :: done, operations, outcome_bind_of_ok run, List.prefix_rfl,
            .inl ⟨rfl, module :: modules, ?_, rfl⟩⟩
          have stays := (Store.extends_ensureAll registry options (done.map (·.fullName))
            (r.store.ensure registry options content.fullName)).findModule found
          exact Outcome.mapM_eq_ok_iff.mpr (.cons stays (Outcome.mapM_eq_ok_iff.mp got))
        · exact ⟨_, content :: done, operations, outcome_bind_of_error run,
            List.cons_prefix_cons.mpr ⟨rfl, before⟩, .inr ⟨set, error, rfl⟩⟩
      · exact ⟨_, [], noted, outcome_bind_of_error here, List.nil_prefix,
          .inr ⟨set, error, rfl⟩⟩

/-- The modules of contents as a store has them, if they are what was asked for. -/
def resolution (registry : String) (contents : List Content) (s : Store) :
    Except PublishError (List RegistryModule) := do
  let modules ← (s.getModules registry (contents.map (·.fullName.ref))).mapError .registry
  (contents.zip modules).forM checkSame
  return modules

theorem outcome_resolution {contents : List Content} {modules : List RegistryModule} {s : Store}
    (found : s.getModules registry (contents.map (·.fullName.ref)) = .ok modules)
    (r : MemoryRegistry) :
    outcome (do given ((contents.zip modules).forM checkSame); return modules) r =
      (resolution registry contents s, r) := by
  unfold resolution
  rw [found]
  change _ = (((contents.zip modules).forM checkSame >>= fun _ => pure modules), r)
  cases (contents.zip modules).forM checkSame <;> rfl

/-- Resolving contents settles the first of them, or all of them, with what the store then has for a
result. It ends before that only by the failure that is set. -/
theorem resolve_settles (registry : String) (options : PublishOptions) (contents : List Content)
    (r : MemoryRegistry) : ∃ result done operations,
      outcome (resolve client registry contents options) r =
        (result, { r with
          store := r.store.settle registry options (done.map (·.fullName))
          operations := operations }) ∧
      done <+: contents ∧
      (done = contents ∧ result = resolution registry contents
          (r.store.settle registry options (contents.map (·.fullName))) ∨
        r.failure ≠ none ∧ ∃ error, result = .error (.registry error)) := by
  unfold resolve Store.settle
  by_cases create : options.createMissing = true
  · simp only [create, if_true]
    obtain ⟨found, done, operations, run, before, ends⟩ :=
      createAll_settles registry options contents r
    rcases ends with ⟨rfl, modules, got, rfl⟩ | ⟨set, error, rfl⟩
    · refine ⟨_, done, operations, ?_, List.prefix_rfl, .inl ⟨rfl, rfl⟩⟩
      rw [outcome_bind_of_ok run]
      exact outcome_resolution got _
    · exact ⟨_, done, operations, outcome_bind_of_error run, before, .inr ⟨set, error, rfl⟩⟩
  · simp only [create, Bool.false_eq_true, if_false]
    cases failing : r.failureOf? .getModules with
    | some error =>
        have all := outcome_getAll contents (getModules_of_failure failing registry _)
        exact ⟨_, [], _, outcome_bind_of_error all, List.nil_prefix,
          .inr ⟨MemoryRegistry.failure_ne_none (by rw [failing]; simp), error, rfl⟩⟩
    | none =>
        have all := outcome_getAll contents (getModules_of_success failing registry _)
        refine ⟨_, contents,
          r.operations ++ [.getModules registry (contents.map (·.fullName.ref))], ?_,
          List.prefix_rfl, .inl ⟨rfl, rfl⟩⟩
        cases got : r.store.getModules registry (contents.map (·.fullName.ref)) with
        | error error =>
            rw [got] at all
            rw [resolution, got]
            exact outcome_bind_of_error all
        | ok modules =>
            rw [got] at all
            exact (outcome_bind_of_ok all).trans (outcome_resolution got _)

end Publishing

end SchemaModules
