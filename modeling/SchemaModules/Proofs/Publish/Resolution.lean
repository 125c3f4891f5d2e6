import SchemaModules.Proofs.Publish.Outcome
import SchemaModules.Proofs.Registry.Memory

/-! # How contents are resolved on a registry

Contents are created one by one, and one that exists already is got instead (`CreateRun`), or they
are all got with one call. Which calls are noted follows from the answers (`resolve_run`).
-/

namespace SchemaModules.Publishing

open MemoryRegistry (client)

variable {registry : String} {options : PublishOptions} {r last : MemoryRegistry}

/-- The request to create the module of a name. -/
def request (options : PublishOptions) (name : FullName) : NewModule :=
  ⟨name.ref, options.visibility, options.defaultLabel⟩

/-- The calls that create modules of names one after another, from a state to a state. Each module
is created by a call of its own, and one that exists already is got by another. The calls stop at the
first that fails otherwise; the flag tells whether they came to the end. -/
inductive CreateRun (registry : String) (options : PublishOptions) :
    MemoryRegistry → List FullName → List Operation → Bool → MemoryRegistry → Prop where
  | done (r : MemoryRegistry) : CreateRun registry options r [] [] true r
  | created {r next last name names operations complete modules}
      (answer : client.createModules registry [request options name] r = (.ok modules, next))
      (rest : CreateRun registry options next names operations complete last) :
      CreateRun registry options r (name :: names)
        (.createModules registry [name.ref] :: operations) complete last
  | existed {r next after last name names operations complete modules what}
      (answer : client.createModules registry [request options name] r =
        (.error (.alreadyExists what), next))
      (got : client.getModules registry [name.ref] next = (.ok modules, after))
      (rest : CreateRun registry options after names operations complete last) :
      CreateRun registry options r (name :: names)
        (.createModules registry [name.ref] :: .getModules registry [name.ref] :: operations)
        complete last
  | refused {r last name names error}
      (answer : client.createModules registry [request options name] r = (.error error, last))
      (other : ∀ what, error ≠ .alreadyExists what) :
      CreateRun registry options r (name :: names) [.createModules registry [name.ref]] false last
  | missing {r next last name names what error}
      (answer : client.createModules registry [request options name] r =
        (.error (.alreadyExists what), next))
      (got : client.getModules registry [name.ref] next = (.error error, last)) :
      CreateRun registry options r (name :: names)
        [.createModules registry [name.ref], .getModules registry [name.ref]] false last

/-- A run notes its calls, and nothing else. -/
theorem CreateRun.operations_eq {names : List FullName} {operations : List Operation}
    {complete : Bool} (run : CreateRun registry options r names operations complete last) :
    last.operations = r.operations ++ operations := by
  induction run with
  | done r => rw [List.append_nil]
  | created answer _ ih =>
      rw [ih, MemoryRegistry.operations_of_createModules answer, List.append_assoc]
      rfl
  | existed answer got _ ih =>
      rw [ih, MemoryRegistry.operations_of_getModules got,
        MemoryRegistry.operations_of_createModules answer, List.append_assoc, List.append_assoc]
      rfl
  | refused answer => exact MemoryRegistry.operations_of_createModules answer
  | missing answer got =>
      rw [MemoryRegistry.operations_of_getModules got,
        MemoryRegistry.operations_of_createModules answer, List.append_assoc]
      rfl

/-- The calls of a run are made to one registry, and none of them uploads. -/
theorem CreateRun.forms {names : List FullName} {operations : List Operation} {complete : Bool}
    (run : CreateRun registry options r names operations complete last) :
    ∀ operation ∈ operations, operation.registry = registry ∧ operation.isUpload = false := by
  induction run with
  | done => exact fun _ member => absurd member List.not_mem_nil
  | created _ _ ih => exact List.forall_mem_cons.mpr ⟨⟨rfl, rfl⟩, ih⟩
  | existed _ _ _ ih =>
      exact List.forall_mem_cons.mpr ⟨⟨rfl, rfl⟩, List.forall_mem_cons.mpr ⟨⟨rfl, rfl⟩, ih⟩⟩
  | refused => simp [Operation.registry, Operation.isUpload]
  | missing => simp [Operation.registry, Operation.isUpload]

/-! ## One module -/

section Step

variable {next : MemoryRegistry} {name : FullName} {module : RegistryModule} {what : String}
  {error : RegistryError}

theorem outcome_createOrGet_created
    (answer : client.createModules registry [request options name] r = (.ok [module], last)) :
    outcome (createOrGet client registry options name) r = (.ok module, last) := by
  unfold request at answer
  unfold createOrGet
  rw [outcome_bind_of_ok (outcome_attempt _ _)]
  simp only [answer]
  rfl

theorem outcome_createOrGet_existed
    (answer : client.createModules registry [request options name] r =
      (.error (.alreadyExists what), next))
    (got : client.getModules registry [name.ref] next = (.ok [module], last)) :
    outcome (createOrGet client registry options name) r = (.ok module, last) := by
  unfold request at answer
  have called : outcome (call (client.getModules registry [name.ref])) next =
      (.ok [module], last) := by
    rw [outcome_call, got]
    rfl
  unfold createOrGet
  rw [outcome_bind_of_ok (outcome_attempt _ _)]
  simp only [answer]
  rw [outcome_bind_of_ok called]
  rfl

theorem outcome_createOrGet_refused
    (answer : client.createModules registry [request options name] r = (.error error, last))
    (other : ∀ what, error ≠ .alreadyExists what) :
    outcome (createOrGet client registry options name) r = (.error (.registry error), last) := by
  unfold request at answer
  unfold createOrGet
  rw [outcome_bind_of_ok (outcome_attempt _ _)]
  simp only [answer]
  cases error with
  | alreadyExists what => exact absurd rfl (other what)
  | _ => rfl

theorem outcome_createOrGet_missing
    (answer : client.createModules registry [request options name] r =
      (.error (.alreadyExists what), next))
    (got : client.getModules registry [name.ref] next = (.error error, last)) :
    outcome (createOrGet client registry options name) r = (.error (.registry error), last) := by
  unfold request at answer
  have called : outcome (call (client.getModules registry [name.ref])) next =
      (.error (.registry error), last) := by
    rw [outcome_call, got]
    rfl
  unfold createOrGet
  rw [outcome_bind_of_ok (outcome_attempt _ _)]
  simp only [answer]
  rw [outcome_bind_of_error called]

end Step

/-! ## All modules -/

/-- How calls that resolve contents end, by whether they come to the end. -/
def Ends (complete : Bool) (result : Except PublishError (List RegistryModule)) : Prop :=
  (complete = true ∧ ∃ modules, result = .ok modules) ∨
    (complete = false ∧ ∃ error, result = .error (.registry error))

/-- Once the first module is there, creating all modules ends as it does for the others. -/
theorem outcome_create_cons {content : Content} {rest : List Content} {next : MemoryRegistry}
    {module : RegistryModule} {complete : Bool} {result : Except PublishError (List RegistryModule)}
    (first : outcome (createOrGet client registry options content.fullName) r = (.ok module, next))
    (later : outcome (rest.mapM fun content => createOrGet client registry options content.fullName)
      next = (result, last)) (ended : Ends complete result) :
    ∃ whole, outcome ((content :: rest).mapM fun content =>
        createOrGet client registry options content.fullName) r = (whole, last) ∧
      Ends complete whole := by
  rw [List.mapM_cons, outcome_bind_of_ok first]
  rcases ended with ⟨finished, modules, rfl⟩ | ⟨stopped, error, rfl⟩
  · refine ⟨.ok (module :: modules), ?_, .inl ⟨finished, _, rfl⟩⟩
    rw [outcome_bind_of_ok later]
    rfl
  · exact ⟨_, outcome_bind_of_error later, .inr ⟨stopped, error, rfl⟩⟩

/-- If the first module is not there, creating all modules ends at it. -/
theorem outcome_create_stop {content : Content} (rest : List Content) {error : RegistryError}
    (first : outcome (createOrGet client registry options content.fullName) r =
      (.error (.registry error), last)) :
    ∃ whole, outcome ((content :: rest).mapM fun content =>
        createOrGet client registry options content.fullName) r = (whole, last) ∧
      Ends false whole := by
  rw [List.mapM_cons]
  exact ⟨_, outcome_bind_of_error first, .inr ⟨rfl, error, rfl⟩⟩

/-- Creating the modules of contents notes the calls of a run, and fails where the run stops. -/
theorem create_run (contents : List Content) (r : MemoryRegistry) :
    ∃ operations complete last result,
      outcome (contents.mapM fun content => createOrGet client registry options content.fullName) r =
        (result, last) ∧
      CreateRun registry options r (contents.map (·.fullName)) operations complete last ∧
      Ends complete result := by
  induction contents generalizing r with
  | nil => exact ⟨[], true, r, .ok [], rfl, .done r, .inl ⟨rfl, [], rfl⟩⟩
  | cons content rest ih =>
      rcases created : client.createModules registry [request options content.fullName] r with
        ⟨answer, next⟩
      cases answer with
      | ok modules =>
          obtain ⟨module, rfl⟩ := MemoryRegistry.singleton_of_createModules created
          obtain ⟨operations, complete, last, result, later, run, ended⟩ := ih next
          obtain ⟨whole, all, ends⟩ :=
            outcome_create_cons (outcome_createOrGet_created created) later ended
          exact ⟨_, complete, last, whole, all, .created created run, ends⟩
      | error error =>
          -- Only an error that the module exists is followed by another call.
          by_cases known : ∃ what, error = .alreadyExists what
          · obtain ⟨what, rfl⟩ := known
            rcases got : client.getModules registry [content.fullName.ref] next with ⟨found, after⟩
            cases found with
            | ok modules =>
                obtain ⟨module, rfl⟩ := MemoryRegistry.singleton_of_getModules got
                obtain ⟨operations, complete, last, result, later, run, ended⟩ := ih after
                obtain ⟨whole, all, ends⟩ :=
                  outcome_create_cons (outcome_createOrGet_existed created got) later ended
                exact ⟨_, complete, last, whole, all, .existed created got run, ends⟩
            | error error =>
                obtain ⟨whole, all, ends⟩ :=
                  outcome_create_stop rest (outcome_createOrGet_missing created got)
                exact ⟨_, false, after, whole, all, .missing created got, ends⟩
          · have other : ∀ what, error ≠ .alreadyExists what := fun what same => known ⟨what, same⟩
            obtain ⟨whole, all, ends⟩ :=
              outcome_create_stop rest (outcome_createOrGet_refused created other)
            exact ⟨_, false, next, whole, all, .refused created other, ends⟩

/-- The calls that resolve contents, from a state to a state: those of a run if missing modules are
to be created, and else one that gets all modules. -/
def Resolving (registry : String) (options : PublishOptions) (contents : List Content)
    (r : MemoryRegistry) (operations : List Operation) (complete : Bool) (last : MemoryRegistry) :
    Prop :=
  if options.createMissing then
    CreateRun registry options r (contents.map (·.fullName)) operations complete last
  else
    operations = [.getModules registry (contents.map (·.fullName.ref))] ∧
      ∃ answer, client.getModules registry (contents.map (·.fullName.ref)) r = (answer, last) ∧
        complete = answer.isOk

theorem Resolving.operations_eq {contents : List Content} {operations : List Operation}
    {complete : Bool} (resolving : Resolving registry options contents r operations complete last) :
    last.operations = r.operations ++ operations := by
  unfold Resolving at resolving
  split at resolving
  · exact resolving.operations_eq
  · obtain ⟨rfl, answer, got, -⟩ := resolving
    exact MemoryRegistry.operations_of_getModules got

theorem Resolving.forms {contents : List Content} {operations : List Operation} {complete : Bool}
    (resolving : Resolving registry options contents r operations complete last) :
    ∀ operation ∈ operations, operation.registry = registry ∧ operation.isUpload = false := by
  unfold Resolving at resolving
  split at resolving
  · exact resolving.forms
  · obtain ⟨rfl, -⟩ := resolving
    simp [Operation.registry, Operation.isUpload]

theorem outcome_checked (contents : List Content) (modules : List RegistryModule)
    (r : MemoryRegistry) : ∃ result,
      outcome (do given ((contents.zip modules).forM checkSame); return modules) r = (result, r) ∧
        ∀ error, result = .error error → error.isAnswered = true := by
  cases checked : (contents.zip modules).forM checkSame with
  | ok =>
      refine ⟨.ok modules, ?_, fun error failed => absurd failed (by simp)⟩
      rw [outcome_ok_bind]
      rfl
  | error fault =>
      refine ⟨.error fault, outcome_error_bind _ _, ?_⟩
      rintro error ⟨⟩
      obtain ⟨pair, -, failed⟩ := Outcome.exists_of_forM_error checked
      simp only [checkSame] at failed
      split at failed
      · simp at failed
      · obtain rfl := Except.error.inj failed
        rfl

/-- Getting all modules asks once for all of them, and finds as many as it asks for. -/
theorem outcome_getAll (contents : List Content) {answer : Except RegistryError (List RegistryModule)}
    (got : client.getModules registry (contents.map (·.fullName.ref)) r = (answer, last)) :
    outcome (getAll client registry contents) r = (answer.mapError .registry, last) := by
  have called : outcome (call (client.getModules registry (contents.map (·.fullName.ref)))) r =
      (answer.mapError .registry, last) := by
    rw [outcome_call, got]
  unfold getAll
  cases answer with
  | error error => exact outcome_bind_of_error called
  | ok modules =>
      have length := MemoryRegistry.length_of_getModules got
      rw [List.length_map] at length
      rw [outcome_bind_of_ok called]
      simp only [length, ne_eq, not_true_eq_false, if_false]
      rfl

/-- Resolving contents notes its calls. If these do not come to their end, it fails with the error of
the registry, and it fails only by what the registry answers. -/
theorem resolve_run (contents : List Content) (r : MemoryRegistry) :
    ∃ operations complete last result,
      outcome (resolve client registry contents options) r = (result, last) ∧
      Resolving registry options contents r operations complete last ∧
      (complete = false → ∃ error, result = .error (.registry error)) ∧
      ∀ error, result = .error error → error.isAnswered = true := by
  have answered : ∀ (failure : RegistryError) (error : PublishError),
      (.error (.registry failure) : Except PublishError (List RegistryModule)) = .error error →
      error.isAnswered = true := by
    rintro failure error ⟨⟩
    rfl
  unfold resolve
  by_cases create : options.createMissing = true
  · simp only [create, if_true]
    obtain ⟨operations, complete, last, found, created, run, ended⟩ := create_run contents r
    have resolving : Resolving registry options contents r operations complete last := by
      rw [Resolving, if_pos create]
      exact run
    rcases ended with ⟨rfl, modules, rfl⟩ | ⟨rfl, failure, rfl⟩
    · obtain ⟨result, checked, kinds⟩ := outcome_checked contents modules last
      refine ⟨operations, true, last, result, ?_, resolving, by simp, kinds⟩
      rw [outcome_bind_of_ok created]
      exact checked
    · exact ⟨operations, false, last, _, outcome_bind_of_error created, resolving,
        fun _ => ⟨failure, rfl⟩, answered failure⟩
  · simp only [create]
    rcases got : client.getModules registry (contents.map (·.fullName.ref)) r with ⟨answer, last⟩
    have resolving : Resolving registry options contents r
        [.getModules registry (contents.map (·.fullName.ref))] answer.isOk last := by
      rw [Resolving, if_neg create]
      exact ⟨rfl, answer, got, rfl⟩
    have all := outcome_getAll contents got
    cases answer with
    | ok modules =>
        obtain ⟨result, checked, kinds⟩ := outcome_checked contents modules last
        refine ⟨_, true, last, result, ?_, resolving, by simp, kinds⟩
        exact (outcome_bind_of_ok all).trans checked
    | error failure =>
        exact ⟨_, false, last, _, outcome_bind_of_error all, resolving, fun _ => ⟨failure, rfl⟩,
          answered failure⟩

end SchemaModules.Publishing
