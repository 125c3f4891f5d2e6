import SchemaModules.Proofs.Registry.Reachable

/-! # What a failed call leaves

A call that fails leaves what registries keep as it was, with one exception. Labels are moved one
after another, so where one of them cannot be moved, those before it have been. A failed call
leaves a trace exactly if that moved a label elsewhere (`MemoryRegistry.left_of_failed_request`).
-/

namespace SchemaModules

namespace Store

/-- Where a label is kept, if the store has its module. -/
def labelPlace? (s : Store) (registry : String) (ref : LabelRef) : Option LabelPlace :=
  (s.modules.find? (ref.module.on registry)).map fun module => ⟨registry, module.id, ref.label⟩

/-- A label can be moved: the store has its module and the commit, and that is of the module. -/
def CanMove (s : Store) (registry : String) (move : LabelMove) : Prop :=
  ∃ module commit, s.modules.find? (move.ref.module.on registry) = some module ∧
    s.commits.find? move.commitId = some commit ∧ commit.moduleId = module.id

/-- The store with labels moved one after another. -/
def moved (registry : String) (s : Store) (moves : List LabelMove) : Store :=
  moves.foldl (fun s move =>
    match s.labelPlace? registry move.ref with
    | some place => { s with labels := s.labels.insert place move.commitId }
    | none => s) s

variable {s : Store} {registry : String} {move : LabelMove} {moves : List LabelMove}

theorem labelTarget?_eq (s : Store) (registry : String) (ref : LabelRef) :
    s.labelTarget? registry ref = (s.labelPlace? registry ref).bind s.labels.find? := by
  unfold labelTarget? labelPlace?
  cases s.modules.find? (ref.module.on registry) <;> rfl

theorem CanMove.exists_place (can : s.CanMove registry move) :
    ∃ place, s.labelPlace? registry move.ref = some place := by
  obtain ⟨module, -, found, -⟩ := can
  exact ⟨_, congrArg _ found⟩

theorem moved_singleton {place : LabelPlace}
    (known : s.labelPlace? registry move.ref = some place) :
    s.moved registry [move] = { s with labels := s.labels.insert place move.commitId } := by
  simp [moved, known]

/-- Labels are all that changes when labels are moved. -/
theorem moved_eq (registry : String) (s : Store) (moves : List LabelMove) :
    s.moved registry moves = { s with labels := (s.moved registry moves).labels } := by
  induction moves generalizing s with
  | nil => rfl
  | cons move rest ih =>
      unfold moved at ih ⊢
      rw [List.foldl_cons, ih]
      cases s.labelPlace? registry move.ref <;> rfl

theorem labelPlace?_moved (registry : String) (s : Store) (moves : List LabelMove)
    (ref : LabelRef) : (s.moved registry moves).labelPlace? registry ref =
      s.labelPlace? registry ref := by
  rw [moved_eq]
  rfl

theorem canMove_moved_iff : (s.moved registry moves).CanMove registry move ↔
    s.CanMove registry move := by
  rw [moved_eq]
  rfl

/-! ## Which moves are made -/

theorem moveLabel_of_canMove (can : s.CanMove registry move) :
    ∃ label, moveLabel registry move s = .ok (label, s.moved registry [move]) := by
  obtain ⟨module, commit, found, made, same⟩ := can
  have known : s.findModule registry move.ref.module = .ok module := findModule_eq_ok_iff.mpr found
  refine ⟨⟨move.ref.label, module.id, move.commitId⟩, ?_⟩
  unfold moveLabel
  rw [known]
  simp [bind, Except.bind, pure, Except.pure, made, same, moved, labelPlace?, found, setLabel]

theorem moveLabel_of_not_canMove (cannot : ¬ s.CanMove registry move) :
    ∃ what, moveLabel registry move s = .error (.notFound what) := by
  unfold moveLabel findModule
  cases found : s.modules.find? (move.ref.module.on registry) with
  | none => exact ⟨move.ref.module.text, rfl⟩
  | some module =>
      have other : ¬ (s.commits.find? move.commitId).any (·.moduleId = module.id) = true := by
        intro known
        obtain ⟨commit, made, same⟩ := (Option.any_eq_true _ _).mp known
        exact cannot ⟨module, commit, found, made, of_decide_eq_true same⟩
      exact ⟨move.commitId, if_neg other⟩

/-- Labels are moved up to the first that cannot be. -/
theorem moveLabels_of_stuck {before : List LabelMove} {failing : LabelMove}
    (made : ∀ m ∈ before, s.CanMove registry m) (stuck : ¬ s.CanMove registry failing)
    (rest : List LabelMove) : ∃ error, moveLabels registry (before ++ failing :: rest) s =
      (.error error, s.moved registry before) := by
  induction before generalizing s with
  | nil =>
      obtain ⟨what, failed⟩ := moveLabel_of_not_canMove stuck
      exact ⟨.notFound what, by simp [moveLabels, failed, moved]⟩
  | cons move before ih =>
      obtain ⟨here, later⟩ := List.forall_mem_cons.mp made
      obtain ⟨label, done⟩ := moveLabel_of_canMove here
      obtain ⟨error, failed⟩ := ih (s := s.moved registry [move])
        (fun m member => canMove_moved_iff.mpr (later m member)) (mt canMove_moved_iff.mp stuck)
      refine ⟨error, ?_⟩
      simp only [List.cons_append, moveLabels, done, failed]
      rfl

theorem exists_stuck_of_moveLabels {error : RegistryError}
    (failed : (moveLabels registry moves s).1 = .error error) :
    ∃ before failing rest, moves = before ++ failing :: rest ∧
      (∀ m ∈ before, s.CanMove registry m) ∧ ¬ s.CanMove registry failing := by
  induction moves generalizing s error with
  | nil => cases failed
  | cons move rest ih =>
      by_cases can : s.CanMove registry move
      · obtain ⟨label, done⟩ := moveLabel_of_canMove can
        simp only [moveLabels, done] at failed
        cases later : (moveLabels registry rest (s.moved registry [move])).1 with
        | ok labels => simp [later, Except.map] at failed
        | error error =>
            obtain ⟨before, failing, after, rfl, made, stuck⟩ := ih later
            refine ⟨move :: before, failing, after, rfl, ?_, mt canMove_moved_iff.mpr stuck⟩
            exact List.forall_mem_cons.mpr
              ⟨can, fun m member => canMove_moved_iff.mp (made m member)⟩
      · exact ⟨[], move, rest, rfl, fun _ member => absurd member List.not_mem_nil, can⟩

/-! ## Where the labels are then -/

theorem find?_moved_of_others {place : LabelPlace}
    (others : ∀ m ∈ moves, s.labelPlace? registry m.ref ≠ some place) :
    (s.moved registry moves).labels.find? place = s.labels.find? place := by
  induction moves generalizing s with
  | nil => rfl
  | cons move rest ih =>
      obtain ⟨here, later⟩ := List.forall_mem_cons.mp others
      have step : (s.moved registry [move]).labels.find? place = s.labels.find? place := by
        cases known : s.labelPlace? registry move.ref with
        | none => simp [moved, known]
        | some other =>
            have apart : place ≠ other := by
              rintro rfl
              exact here known
            rw [moved_singleton known]
            exact (SortedMap.find?_insert ..).trans (if_neg apart)
      have rest := ih (s := s.moved registry [move]) fun m member =>
        labelPlace?_moved registry s [move] m.ref ▸ later m member
      exact rest.trans step

/-- A label is where the last move puts it. -/
theorem find?_moved_of_last {earlier later : List LabelMove} {place : LabelPlace}
    (here : s.labelPlace? registry move.ref = some place)
    (last : ∀ m ∈ later, s.labelPlace? registry m.ref ≠ some place) :
    (s.moved registry (earlier ++ move :: later)).labels.find? place = some move.commitId := by
  have split : s.moved registry (earlier ++ move :: later) =
      ((s.moved registry earlier).moved registry [move]).moved registry later := by
    simp [moved, List.foldl_append]
  rw [split, find?_moved_of_others]
  · rw [moved_singleton ((labelPlace?_moved registry s earlier move.ref).trans here)]
    exact (SortedMap.find?_insert ..).trans (if_pos rfl)
  · intro m member
    rw [labelPlace?_moved, labelPlace?_moved]
    exact last m member

/-- Moves leave the labels as they were if each that no later one undoes moves its label to where it
was. -/
theorem labels_moved_eq_iff (made : ∀ m ∈ moves, s.CanMove registry m) :
    (s.moved registry moves).labels = s.labels ↔
      ∀ earlier move later, moves = earlier ++ move :: later →
        (∀ m ∈ later, s.labelPlace? registry m.ref ≠ s.labelPlace? registry move.ref) →
        s.labelTarget? registry move.ref = some move.commitId := by
  constructor
  · rintro same earlier move later rfl last
    obtain ⟨place, here⟩ := (made move List.mem_append_cons_self).exists_place
    rw [here] at last
    rw [labelTarget?_eq, here, Option.bind_some, ← same]
    exact find?_moved_of_last here last
  · intro kept
    refine SortedMap.eq_of_find?_eq fun place => ?_
    -- The last move of a label is the one that no later move undoes.
    cases found : moves.reverse.find? fun m => s.labelPlace? registry m.ref = some place with
    | none =>
        refine find?_moved_of_others fun m member => ?_
        simpa using List.find?_eq_none.mp found m (List.mem_reverse.mpr member)
    | some move =>
        obtain ⟨here, after, before, split, others⟩ := List.find?_eq_some_iff_append.mp found
        have here := of_decide_eq_true here
        have last : ∀ m ∈ after.reverse, s.labelPlace? registry m.ref ≠ some place := by
          intro m member
          simpa using others m (List.mem_reverse.mp member)
        have order : moves = before.reverse ++ move :: after.reverse := by
          rw [← List.reverse_reverse moves, split]
          simp
        have target := kept before.reverse move after.reverse order (here ▸ last)
        rw [labelTarget?_eq, here, Option.bind_some] at target
        rw [target, order]
        exact find?_moved_of_last here last

/-- Moves of labels leave a trace although they fail: some that can be made come before one that
cannot, and of them the last of some label takes it to where it was not. -/
inductive LeaveTrace (s : Store) (registry : String) : List LabelMove → Prop where
  | intro {earlier later rest : List LabelMove} {move failing : LabelMove}
      (made : ∀ m ∈ earlier ++ move :: later, s.CanMove registry m)
      (stuck : ¬ s.CanMove registry failing)
      (last : ∀ m ∈ later, s.labelPlace? registry m.ref ≠ s.labelPlace? registry move.ref)
      (elsewhere : s.labelTarget? registry move.ref ≠ some move.commitId) :
      LeaveTrace s registry ((earlier ++ move :: later) ++ failing :: rest)

/-- Moves that fail are made up to some, which is to be seen of the labels if they leave a trace. -/
theorem moveLabels_of_error {error : RegistryError}
    (failed : (moveLabels registry moves s).1 = .error error) : ∃ done,
      (moveLabels registry moves s).2 = s.moved registry done ∧
      ((s.moved registry done).labels = s.labels ↔ ¬ s.LeaveTrace registry moves) := by
  obtain ⟨done, stopped, rest, rfl, made, stuck⟩ := exists_stuck_of_moveLabels failed
  obtain ⟨_, run⟩ := moveLabels_of_stuck made stuck rest
  refine ⟨done, congrArg Prod.snd run, ?_⟩
  constructor
  · intro same trace
    generalize split : done ++ stopped :: rest = moves at run trace
    cases trace with
    | @intro earlier later rest' move failing' made' stuck' last elsewhere =>
        -- Both ways to take the moves apart come to the same store.
        obtain ⟨_, again⟩ := moveLabels_of_stuck made' stuck' rest'
        have store : s.moved registry done = s.moved registry (earlier ++ move :: later) :=
          congrArg Prod.snd (run.symm.trans again)
        rw [store, labels_moved_eq_iff made'] at same
        exact elsewhere (same earlier move later rfl last)
  · intro still
    refine (labels_moved_eq_iff made).mpr fun earlier move later order last => ?_
    refine Decidable.byContradiction fun elsewhere => still ?_
    subst order
    exact .intro made stuck last elsewhere

end Store

/-! ## Requests -/

/-- A call to one of the clients. -/
inductive Request where
  | createModules (registry : String) (requests : List NewModule)
  | getModules (registry : String) (refs : List ModuleRef)
  | upload (registry : String) (contents : List UploadContent) (depCommitIds : List String)
  | uploadFederated (registry : String) (contents : List UploadContent)
      (deps : List DependencyRef)
  | getLabels (registry : String) (refs : List LabelRef)
  | updateLabels (registry : String) (moves : List LabelMove)
  | updateModuleState (registry : String) (ref : ModuleRef) (state : ModuleState)
  | createOrganization (registry name : String)
  | deleteOrganization (registry name : String)

namespace Request

open MemoryRegistry (client adminClient)

/-- A request as it is noted. -/
def operation : Request → Operation
  | .createModules registry requests => .createModules registry (requests.map (·.ref))
  | .getModules registry refs => .getModules registry refs
  | .upload registry contents depCommitIds =>
      .upload registry (contents.map (·.ref)) (contents.map (·.labels)) depCommitIds
  | .uploadFederated registry contents deps =>
      .uploadFederated registry (contents.map (·.ref)) (contents.map (·.labels)) deps
  | .getLabels registry refs => .getLabels registry refs
  | .updateLabels registry moves => .updateLabels registry (moves.map (·.ref))
  | .updateModuleState registry ref state => .updateModuleState registry ref state
  | .createOrganization registry name => .createOrganization registry name
  | .deleteOrganization registry name => .deleteOrganization registry name

/-- A call fails with an error and leaves registries behind. -/
def Fails (request : Request) (r : MemoryRegistry) (error : RegistryError)
    (last : MemoryRegistry) : Prop :=
  match request with
  | .createModules registry requests =>
      client.createModules registry requests r = (.error error, last)
  | .getModules registry refs => client.getModules registry refs r = (.error error, last)
  | .upload registry contents depCommitIds =>
      client.upload registry contents depCommitIds r = (.error error, last)
  | .uploadFederated registry contents deps =>
      client.uploadFederated registry contents deps r = (.error error, last)
  | .getLabels registry refs => adminClient.getLabels registry refs r = (.error error, last)
  | .updateLabels registry moves =>
      adminClient.updateLabels registry moves r = (.error error, last)
  | .updateModuleState registry ref state =>
      adminClient.updateModuleState registry ref state r = (.error error, last)
  | .createOrganization registry name =>
      adminClient.createOrganization registry name r = (.error error, last)
  | .deleteOrganization registry name =>
      adminClient.deleteOrganization registry name r = (.error error, last)

/-- A request moves a label although it fails, and not because it is told to. -/
def Moves (r : MemoryRegistry) (request : Request) : Prop :=
  r.failureOf? .updateLabels = none ∧ ∃ registry moves,
    request = .updateLabels registry moves ∧ r.store.LeaveTrace registry moves

end Request

namespace MemoryRegistry

variable {α : Type} {r last : MemoryRegistry} {error : RegistryError}

/-- A call that fails is noted, and leaves no trace if it leaves none on the store. -/
theorem eq_of_failed_perform {operation : Operation} {run : Call Store α}
    (kept : ∀ s t e, run s = (.error e, t) → t = s)
    (failed : perform operation run r = (.error error, last)) :
    last = { r with operations := r.operations ++ [operation] } := by
  cases failing : r.failureOf? operation.method with
  | some error =>
      rw [perform_of_failure operation failing] at failed
      exact (congrArg Prod.snd failed).symm
  | none =>
      rw [perform_of_success operation failing] at failed
      have answered : (run r.store).1 = .error error := congrArg Prod.fst failed
      have same := kept r.store (run r.store).2 error (Prod.ext answered rfl)
      rw [same] at failed
      exact (congrArg Prod.snd failed).symm

theorem eq_of_failed_changing {change : Store → Except RegistryError (α × Store)} (s t : Store)
    (e : RegistryError) (failed : changing change s = (.error e, t)) : t = s := by
  unfold changing at failed
  split at failed
  · cases failed
  · exact (congrArg Prod.snd failed).symm

theorem eq_of_failed_reading {look : Store → Except RegistryError α} (s t : Store)
    (e : RegistryError) (failed : reading look s = (.error e, t)) : t = s :=
  (congrArg Prod.snd failed).symm

theorem eq_of_failed_uploading {operation : Operation} {contents : List UploadContent}
    (failed : uploading operation contents r = (.error error, last)) :
    last = { r with operations := r.operations ++ [operation] } := by
  unfold uploading at failed
  cases performed : perform operation (changing (Store.upload operation.registry contents)) r with
  | mk answer after =>
      rw [performed] at failed
      obtain rfl : after = last := congrArg Prod.snd failed
      cases answer with
      | ok commits => cases congrArg Prod.fst failed
      | error error => exact eq_of_failed_perform eq_of_failed_changing performed

/-- A failed request is noted and leaves no other trace, unless it is to move labels. -/
theorem eq_of_failed_request {request : Request} (failed : request.Fails r error last)
    (other : ∀ registry moves, request ≠ .updateLabels registry moves) :
    last = { r with operations := r.operations ++ [request.operation] } := by
  cases request with
  | createModules => exact eq_of_failed_perform eq_of_failed_changing failed
  | getModules => exact eq_of_failed_perform eq_of_failed_reading failed
  | upload => exact eq_of_failed_uploading failed
  | uploadFederated => exact eq_of_failed_uploading failed
  | getLabels => exact eq_of_failed_perform eq_of_failed_reading failed
  | updateLabels registry moves => exact absurd rfl (other registry moves)
  | updateModuleState => exact eq_of_failed_perform eq_of_failed_changing failed
  | createOrganization => exact eq_of_failed_perform eq_of_failed_changing failed
  | deleteOrganization => exact eq_of_failed_perform eq_of_failed_changing failed

/-- A failed request to move labels leaves some of them moved, or none. -/
theorem eq_of_failed_moves {registry : String} {moves : List LabelMove}
    (failed : (Request.updateLabels registry moves).Fails r error last) : ∃ done,
      last = { r with
        store := r.store.moved registry done,
        operations := r.operations ++ [.updateLabels registry (moves.map (·.ref))] } ∧
      ((r.store.moved registry done).labels = r.store.labels ↔
        ¬ (r.failureOf? .updateLabels = none ∧ r.store.LeaveTrace registry moves)) := by
  cases failing : r.failureOf? .updateLabels with
  | some told =>
      have left := failed.symm.trans
        (perform_of_failure _ failing (Store.moveLabels registry moves))
      exact ⟨[], congrArg Prod.snd left, iff_of_true rfl fun moved => nomatch moved.1⟩
  | none =>
      have left := failed.symm.trans
        (perform_of_success _ failing (Store.moveLabels registry moves))
      obtain ⟨done, stored, labels⟩ := Store.moveLabels_of_error (congrArg Prod.fst left).symm
      rw [stored] at left
      exact ⟨done, congrArg Prod.snd left, labels.trans (by simp)⟩

/-- A call that fails is noted, and changes no more than labels. What registries keep is as it was,
unless the call moves a label although it fails. -/
theorem left_of_failed_request {request : Request} (failed : request.Fails r error last) :
    last = { r with store := last.store, operations := r.operations ++ [request.operation] } ∧
      last.store = { r.store with labels := last.store.labels } ∧
      (last.store = r.store ↔ ¬ request.Moves r) := by
  by_cases labels : ∃ registry moves, request = .updateLabels registry moves
  · obtain ⟨registry, moves, rfl⟩ := labels
    obtain ⟨done, rfl, same⟩ := eq_of_failed_moves failed
    have store := Store.moved_eq registry r.store done
    have moved : (Request.updateLabels registry moves).Moves r ↔
        r.failureOf? .updateLabels = none ∧ r.store.LeaveTrace registry moves := by
      simp [Request.Moves]
    refine ⟨rfl, store, ?_⟩
    rw [moved, ← same]
    exact ⟨congrArg Store.labels, fun labels => store.trans (by rw [labels])⟩
  · obtain rfl := eq_of_failed_request failed fun registry moves same => labels ⟨_, _, same⟩
    refine ⟨rfl, rfl, iff_of_true rfl ?_⟩
    rintro ⟨-, registry, moves, same, -⟩
    exact labels ⟨registry, moves, same⟩

/-- Where one of several modules to be created exists, none is created. -/
theorem left_of_failed_creation : ∃ (r last : MemoryRegistry) (error : RegistryError),
    let request := Request.createModules "r.dev"
      [⟨⟨"acme", "b"⟩, .isPrivate, "main"⟩, ⟨⟨"acme", "a"⟩, .isPrivate, "main"⟩]
    request.Fails r error last ∧ last.store = r.store ∧
      last.operations = [.createModules "r.dev" [⟨"acme", "b"⟩, ⟨"acme", "a"⟩]] := by
  let r := (empty.seedModule "r.dev" ⟨"acme", "a"⟩ "main").2
  have failed : (Request.createModules "r.dev"
      [⟨⟨"acme", "b"⟩, .isPrivate, "main"⟩, ⟨⟨"acme", "a"⟩, .isPrivate, "main"⟩]).Fails r
      (.alreadyExists "acme/a")
      { r with operations := [.createModules "r.dev" [⟨"acme", "b"⟩, ⟨"acme", "a"⟩]] } := rfl
  obtain ⟨-, -, same⟩ := left_of_failed_request failed
  refine ⟨r, _, _, failed, same.mpr ?_, rfl⟩
  rintro ⟨-, _, _, ⟨⟩, -⟩

/-- The first of two labels stays moved when the second cannot be. -/
theorem label_moved_by_failed_request : ∃ (r last : MemoryRegistry) (error : RegistryError),
    let a : ModuleRef := ⟨"acme", "a"⟩
    r.Reachable ∧
      (Request.updateLabels "r.dev" [⟨⟨a, "x"⟩, Store.idText 2⟩,
        ⟨⟨a, "y"⟩, "ffffffffffffffffffffffffffffffff"⟩]).Fails r error last ∧
      r.store.labels.find? ⟨"r.dev", Store.idText 1, "x"⟩ = none ∧
      last.store.labels.find? ⟨"r.dev", Store.idText 1, "x"⟩ = some (Store.idText 2) := by
  let a : ModuleRef := ⟨"acme", "a"⟩
  let moves : List LabelMove :=
    [⟨⟨a, "x"⟩, Store.idText 2⟩, ⟨⟨a, "y"⟩, "ffffffffffffffffffffffffffffffff"⟩]
  let seeded := (empty.seedModule "r.dev" a "main").2
  let r : MemoryRegistry := { seeded with
    store := (seeded.store.addCommit "r.dev" (Store.idText 1) (Digest.ofFiles [])).2 }
  have found : seeded.store.findModule "r.dev" a =
      .ok ⟨Store.idText 1, "acme", "a", .isPrivate, "main", .active⟩ := by decide
  have committed : seeded.seedCommit "r.dev" a = .ok (Store.idText 2, r) := by
    unfold seedCommit
    rw [found]
    rfl
  have reachable : r.Reachable :=
    .tail (.single (.seedModule empty "r.dev" a "main")) (.seedCommit committed)
  have failed : (adminClient.updateLabels "r.dev" moves r).1 =
      .error (.notFound "ffffffffffffffffffffffffffffffff") := by decide
  have fails : (Request.updateLabels "r.dev" moves).Fails r
      (.notFound "ffffffffffffffffffffffffffffffff")
      (adminClient.updateLabels "r.dev" moves r).2 := by
    change adminClient.updateLabels "r.dev" moves r = _
    rw [← failed]
  have put : (adminClient.updateLabels "r.dev" moves r).2.store.labels.find?
      ⟨"r.dev", Store.idText 1, "x"⟩ = some (Store.idText 2) := by decide
  exact ⟨r, _, _, reachable, fails, rfl, put⟩

end MemoryRegistry

end SchemaModules
