import SchemaModules.Proofs.Outcome
import SchemaModules.Registry.Memory

/-! # Calls to registries in memory

Every call is noted once, whether it fails or not (`operations_perform`), and an answer to a request
for one module is one module.
-/

/-- Modules of a registry are at places of their own. -/
theorem SchemaModules.ModuleRef.on_injective (registry : String) :
    Function.Injective (ModuleRef.on registry) := by
  rintro ⟨owner, name⟩ ⟨_, _⟩ same
  cases same
  rfl

namespace SchemaModules.Store

variable {registry : String} {s : Store} {module : RegistryModule}

theorem findModule_eq_ok_iff {ref : ModuleRef} :
    s.findModule registry ref = .ok module ↔ s.modules.find? (ref.on registry) = some module := by
  unfold findModule
  cases s.modules.find? (ref.on registry) <;> simp

theorem createModules_singleton (registry : String) (new : NewModule) (s : Store) :
    createModules registry [new] s =
      if s.modules.contains (new.ref.on registry) then .error (.alreadyExists new.ref.text)
      else .ok ([(s.addModule registry new).1], (s.addModule registry new).2) := by
  unfold createModules
  by_cases known : s.modules.contains (new.ref.on registry) = true
  · simp [known]
  · simp [known, addModules]

theorem getModules_singleton (registry : String) (ref : ModuleRef) (s : Store) :
    getModules registry [ref] s = (s.findModule registry ref).map ([·]) := by
  unfold getModules
  rw [List.mapM_cons]
  cases s.findModule registry ref <;> rfl

end SchemaModules.Store

namespace SchemaModules.MemoryRegistry

variable {α : Type} {r last : MemoryRegistry}

theorem operations_perform (operation : Operation) (run : Call Store α) (r : MemoryRegistry) :
    (perform operation run r).2.operations = r.operations ++ [operation] := by
  unfold perform
  cases r.failureOf? operation.method <;> rfl

/-- An answer of a call that is noted is the answer of the store. -/
theorem answer_of_perform {operation : Operation} {run : Call Store α} {answer : α}
    (performed : perform operation run r = (.ok answer, last)) : (run r.store).1 = .ok answer := by
  unfold perform at performed
  cases failing : r.failureOf? operation.method with
  | some error => simp [failing] at performed
  | none =>
      simp only [failing] at performed
      exact congrArg Prod.fst performed

theorem operations_uploading (operation : Operation) (contents : List UploadContent)
    (r : MemoryRegistry) :
    (uploading operation contents r).2.operations = r.operations ++ [operation] :=
  operations_perform operation (changing (Store.upload operation.registry contents)) r

theorem failureOf?_eq_none (working : r.failure = none) (method : Method) :
    r.failureOf? method = none := by
  unfold failureOf?
  rw [working]

theorem failure_ne_none {method : Method} (failing : r.failureOf? method ≠ none) :
    r.failure ≠ none := fun working => failing (failureOf?_eq_none working method)

theorem perform_of_failure (operation : Operation) {error : RegistryError}
    (failing : r.failureOf? operation.method = some error) (run : Call Store α) :
    perform operation run r =
      (.error error, { r with operations := r.operations ++ [operation] }) := by
  unfold perform
  rw [failing]

theorem perform_of_success (operation : Operation)
    (working : r.failureOf? operation.method = none) (run : Call Store α) :
    perform operation run r = ((run r.store).1,
      { r with store := (run r.store).2, operations := r.operations ++ [operation] }) := by
  unfold perform
  rw [working]

section Noted

variable {registry : String}

theorem operations_of_createModules {requests : List NewModule}
    {answer : Except RegistryError (List RegistryModule)}
    (called : client.createModules registry requests r = (answer, last)) :
    last.operations = r.operations ++ [.createModules registry (requests.map (·.ref))] := by
  rw [← operations_perform (.createModules registry (requests.map (·.ref)))
    (changing (Store.createModules registry requests)) r]
  exact congrArg (·.2.operations) called.symm

theorem operations_of_getModules {refs : List ModuleRef}
    {answer : Except RegistryError (List RegistryModule)}
    (called : client.getModules registry refs r = (answer, last)) :
    last.operations = r.operations ++ [.getModules registry refs] := by
  rw [← operations_perform (.getModules registry refs) (reading (Store.getModules registry refs)) r]
  exact congrArg (·.2.operations) called.symm

end Noted

/-- Creating one module is answered with one module. -/
theorem singleton_of_createModules {registry : String} {new : NewModule}
    {created : List RegistryModule}
    (answer : client.createModules registry [new] r = (.ok created, last)) :
    ∃ module, created = [module] := by
  simp only [client] at answer
  have stored := answer_of_perform answer
  unfold changing Store.createModules at stored
  cases existing : [new].find? fun new => r.store.modules.contains (new.ref.on registry) with
  | some module => simp [existing] at stored
  | none =>
      simp only [existing] at stored
      exact ⟨_, (Except.ok.inj stored).symm⟩

/-- As many modules are answered as are asked for. -/
theorem length_of_getModules {registry : String} {refs : List ModuleRef}
    {found : List RegistryModule}
    (answer : client.getModules registry refs r = (.ok found, last)) :
    found.length = refs.length := by
  simp only [client] at answer
  have stored := answer_of_perform answer
  have each := Outcome.mapM_eq_ok_iff.mp stored
  exact each.length_eq.symm

theorem singleton_of_getModules {registry : String} {ref : ModuleRef}
    {found : List RegistryModule}
    (answer : client.getModules registry [ref] r = (.ok found, last)) :
    ∃ module, found = [module] :=
  List.length_eq_one_iff.mp (length_of_getModules answer)

end SchemaModules.MemoryRegistry
