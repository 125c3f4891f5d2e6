import Mathlib.Data.List.Forall2

/-! # Outcomes of steps one after another

A course of steps, each of which may fail, succeeds when each step succeeds in turn, and fails at
the first that does not. The rules here take such a course apart.
-/

namespace SchemaModules.Outcome

variable {ε δ α β : Type}

theorem bind_eq_ok_iff {x : Except ε α} {f : α → Except ε β} {b : β} :
    (x >>= f) = .ok b ↔ ∃ a, x = .ok a ∧ f a = .ok b := by
  cases x <;> simp [bind, Except.bind]

theorem bind_eq_error_iff {x : Except ε α} {f : α → Except ε β} {e : ε} :
    (x >>= f) = .error e ↔ x = .error e ∨ ∃ a, x = .ok a ∧ f a = .error e := by
  cases x <;> simp [bind, Except.bind]

@[simp]
theorem pure_eq_ok_iff {a b : α} : (pure a : Except ε α) = .ok b ↔ a = b := by
  simp [pure, Except.pure]

@[simp]
theorem mapError_eq_ok_iff {x : Except ε α} {f : ε → δ} {a : α} :
    x.mapError f = .ok a ↔ x = .ok a := by
  cases x <;> simp [Except.mapError]

@[simp]
theorem mapError_eq_error_iff {x : Except ε α} {f : ε → δ} {d : δ} :
    x.mapError f = .error d ↔ ∃ e, x = .error e ∧ f e = d := by
  cases x <;> simp [Except.mapError]

/-- What stands behind a guard succeeds when the guard lets it pass and it does. -/
theorem guard_eq_ok_iff {condition : Prop} [Decidable condition] {e : ε}
    {next : Unit → Except ε α} {a : α} :
    (if condition then (throw e : Except ε Unit) >>= next else next ()) = .ok a ↔
      ¬ condition ∧ next () = .ok a := by
  by_cases stopped : condition
  · simp [stopped, bind_eq_ok_iff]
  · simp [stopped]

/-- A check of every element of a list succeeds when each check does. -/
theorem forM_eq_ok_iff {check : α → Except ε Unit} {list : List α} :
    list.forM check = .ok () ↔ ∀ a ∈ list, check a = .ok () := by
  induction list with
  | nil => simp [List.forM, pure, Except.pure]
  | cons a rest ih =>
      change (check a >>= fun _ => rest.forM check) = .ok () ↔ _
      rw [bind_eq_ok_iff, List.forall_mem_cons, ← ih]
      constructor
      · rintro ⟨⟨⟩, here, later⟩
        exact ⟨here, later⟩
      · rintro ⟨here, later⟩
        exact ⟨(), here, later⟩

/-- A check of every element of a list fails as it does for some element. -/
theorem exists_of_forM_error {check : α → Except ε Unit} {list : List α} {e : ε}
    (failed : list.forM check = .error e) : ∃ a ∈ list, check a = .error e := by
  induction list with
  | nil => simp [List.forM, pure, Except.pure] at failed
  | cons a rest ih =>
      change (check a >>= fun _ => rest.forM check) = .error e at failed
      rcases bind_eq_error_iff.mp failed with here | ⟨_, -, later⟩
      · exact ⟨a, List.mem_cons_self, here⟩
      · obtain ⟨b, member, failing⟩ := ih later
        exact ⟨b, List.mem_cons_of_mem _ member, failing⟩

/-- A step for every element of a list fails as it does for some element. -/
theorem exists_of_mapM_error {step : α → Except ε β} {list : List α} {e : ε}
    (failed : list.mapM step = .error e) : ∃ a ∈ list, step a = .error e := by
  induction list with
  | nil => simp [pure, Except.pure] at failed
  | cons a rest ih =>
      rw [List.mapM_cons] at failed
      rcases bind_eq_error_iff.mp failed with here | ⟨_, -, remaining⟩
      · exact ⟨a, List.mem_cons_self, here⟩
      · rcases bind_eq_error_iff.mp remaining with later | ⟨_, -, impossible⟩
        · obtain ⟨b, member, failing⟩ := ih later
          exact ⟨b, List.mem_cons_of_mem _ member, failing⟩
        · simp [pure, Except.pure] at impossible

/-- A step for every element of a list succeeds when each step does, element by element. -/
theorem mapM_eq_ok_iff {step : α → Except ε β} {list : List α} {results : List β} :
    list.mapM step = .ok results ↔ List.Forall₂ (fun a b => step a = .ok b) list results := by
  induction list generalizing results with
  | nil => simp [pure, Except.pure, eq_comm]
  | cons a rest ih =>
      rw [List.mapM_cons, bind_eq_ok_iff]
      constructor
      · rintro ⟨b, here, remaining⟩
        obtain ⟨bs, later, equal⟩ := bind_eq_ok_iff.mp remaining
        obtain rfl := pure_eq_ok_iff.mp equal
        exact .cons here (ih.mp later)
      · intro all
        cases all with
        | cons here later =>
            exact ⟨_, here, bind_eq_ok_iff.mpr ⟨_, ih.mpr later, rfl⟩⟩

/-- In lists that are related element by element, every element of the second has one of the
first. -/
theorem exists_of_forall₂ {R : α → β → Prop} {list : List α} {results : List β}
    (each : List.Forall₂ R list results) {b : β} (member : b ∈ results) :
    ∃ a ∈ list, R a b := by
  induction each with
  | nil => exact absurd member List.not_mem_nil
  | cons here later ih =>
      rcases List.mem_cons.mp member with rfl | among
      · exact ⟨_, List.mem_cons_self, here⟩
      · obtain ⟨a, source, result⟩ := ih among
        exact ⟨a, List.mem_cons_of_mem _ source, result⟩

/-- In lists that are related element by element, elements at one place are related. -/
theorem getElem?_of_forall₂ {R : α → β → Prop} {list : List α} {results : List β}
    (each : List.Forall₂ R list results) {i : Nat} {a : α} (here : list[i]? = some a) :
    ∃ b, results[i]? = some b ∧ R a b := by
  induction each generalizing i with
  | nil => cases here
  | cons first _ ih =>
      cases i with
      | zero =>
          obtain rfl := Option.some.inj here
          exact ⟨_, rfl, first⟩
      | succ i => exact ih here

/-- What is related to a list in two ways, element by element, is so in pairs. -/
theorem forall₂_zip {γ : Type} {R : α → β → Prop} {S : α → γ → Prop} {list : List α}
    {firsts : List β} {seconds : List γ} (first : List.Forall₂ R list firsts)
    (second : List.Forall₂ S list seconds) :
    List.Forall₂ (fun a pair => R a pair.1 ∧ S a pair.2) list (firsts.zip seconds) := by
  induction first generalizing seconds with
  | nil => exact .nil
  | cons here _ ih =>
      cases second with
      | cons there later => exact .cons ⟨here, there⟩ (ih later)

/-- What holds of pairs of a list, in order, holds of the pairs that they are related to. -/
theorem pairwise_of_forall₂ {R : α → β → Prop} {S : α → α → Prop} {T : β → β → Prop}
    {list : List α} {results : List β} (each : List.Forall₂ R list results)
    (pairs : list.Pairwise S) (carried : ∀ a b c d, R a b → R c d → S a c → T b d) :
    results.Pairwise T := by
  induction each with
  | nil => exact .nil
  | cons here later ih =>
      obtain ⟨first, others⟩ := List.pairwise_cons.mp pairs
      refine List.pairwise_cons.mpr ⟨fun d member => ?_, ih others⟩
      obtain ⟨c, among, related⟩ := exists_of_forall₂ later member
      exact carried _ _ _ _ here related (first c among)

/-- Every result of a step for every element is the result of the step for one of them. -/
theorem exists_of_mem_mapM {step : α → Except ε β} {list : List α} {results : List β}
    (done : list.mapM step = .ok results) {b : β} (member : b ∈ results) :
    ∃ a ∈ list, step a = .ok b :=
  exists_of_forall₂ (mapM_eq_ok_iff.mp done) member

/-- Steps that each succeed for an element of a list succeed for the list. -/
theorem mapM_total {step : α → Except ε β} {list : List α}
    (each : ∀ a ∈ list, ∃ b, step a = .ok b) : ∃ results, list.mapM step = .ok results := by
  induction list with
  | nil => exact ⟨[], rfl⟩
  | cons a rest ih =>
      obtain ⟨b, here⟩ := each a List.mem_cons_self
      obtain ⟨bs, later⟩ := ih fun c member => each c (List.mem_cons_of_mem _ member)
      refine ⟨b :: bs, ?_⟩
      rw [List.mapM_cons, here]
      exact bind_eq_ok_iff.mpr ⟨b, rfl, bind_eq_ok_iff.mpr ⟨bs, later, rfl⟩⟩

/-- A step for every element of a list fails at the first element whose step does. -/
theorem mapM_eq_error_iff {step : α → Except ε β} {list : List α} {e : ε} :
    list.mapM step = .error e ↔ ∃ before a after, list = before ++ a :: after ∧
      (∀ b ∈ before, ∃ result, step b = .ok result) ∧ step a = .error e := by
  constructor
  · intro failed
    induction list with
    | nil => simp [pure, Except.pure] at failed
    | cons a rest ih =>
        rw [List.mapM_cons] at failed
        rcases bind_eq_error_iff.mp failed with here | ⟨result, done, remaining⟩
        · exact ⟨[], a, rest, rfl, fun _ none => absurd none List.not_mem_nil, here⟩
        · rcases bind_eq_error_iff.mp remaining with later | ⟨_, -, impossible⟩
          · obtain ⟨before, b, after, rfl, earlier, stopped⟩ := ih later
            exact ⟨a :: before, b, after, rfl, List.forall_mem_cons.mpr ⟨⟨result, done⟩, earlier⟩,
              stopped⟩
          · simp [pure, Except.pure] at impossible
  · rintro ⟨before, a, after, rfl, earlier, stopped⟩
    obtain ⟨results, done⟩ := mapM_total earlier
    rw [List.mapM_append, done, List.mapM_cons, stopped]
    rfl

/-- Steps that each succeed as a function says give what the function gives. -/
theorem mapM_eq_map {step : α → Except ε β} (result : α → β) (list : List α)
    (each : ∀ a, step a = .ok (result a)) : list.mapM step = .ok (list.map result) := by
  rw [mapM_eq_ok_iff, List.forall₂_map_right_iff]
  exact List.forall₂_same.mpr fun a _ => each a

/-- Steps from state to state fail at the first element whose step does. -/
theorem exists_of_foldlM_error {σ : Type} {step : σ → α → Except ε σ} {list : List α} {start : σ}
    {e : ε} (failed : list.foldlM step start = .error e) :
    ∃ before a after mid, list = before ++ a :: after ∧ before.foldlM step start = .ok mid ∧
      step mid a = .error e := by
  induction list generalizing start with
  | nil => simp [pure, Except.pure] at failed
  | cons a rest ih =>
      rw [List.foldlM_cons] at failed
      rcases bind_eq_error_iff.mp failed with here | ⟨next, done, later⟩
      · exact ⟨[], a, rest, start, rfl, rfl, here⟩
      · obtain ⟨before, b, after, mid, rfl, reached, stopped⟩ := ih later
        refine ⟨a :: before, b, after, mid, rfl, ?_, stopped⟩
        rw [List.foldlM_cons]
        exact bind_eq_ok_iff.mpr ⟨next, done, reached⟩

/-- What holds at the start and is carried on by the step for each element, given those before it,
holds at the end of the list. -/
theorem foldlM_carries {σ : Type} (holds : List α → σ → Prop) {step : σ → α → Except ε σ}
    {list : List α} (carried : ∀ done a rest, list = done ++ a :: rest →
      ∀ s t, holds done s → step s a = .ok t → holds (done ++ [a]) t)
    {start final : σ} (initial : holds [] start) (done : list.foldlM step start = .ok final) :
    holds list final := by
  have run : ∀ (rest before : List α) (mid : σ), list = before ++ rest → holds before mid →
      rest.foldlM step mid = .ok final → holds list final := by
    intro rest
    induction rest with
    | nil =>
        intro before mid split reached last
        obtain rfl := pure_eq_ok_iff.mp last
        rwa [split, List.append_nil]
    | cons a rest ih =>
        intro before mid split reached later
        rw [List.foldlM_cons] at later
        obtain ⟨next, here, remaining⟩ := bind_eq_ok_iff.mp later
        have kept := carried before a rest split mid next reached here
        refine ih (before ++ [a]) next ?_ kept remaining
        rw [split, List.append_assoc, List.singleton_append]
  exact run list [] start rfl initial done

/-- What holds at the start and is kept by every step holds at the end. -/
theorem foldlM_keeps {σ : Type} (holds : σ → Prop) {step : σ → α → Except ε σ} {list : List α}
    (kept : ∀ a ∈ list, ∀ s t, holds s → step s a = .ok t → holds t) {start final : σ}
    (initial : holds start) (done : list.foldlM step start = .ok final) : holds final := by
  refine foldlM_carries (fun _ => holds) ?_ initial done
  intro before a rest split
  exact kept a (split ▸ List.mem_append_right _ List.mem_cons_self)

/-- Steps that each succeed as a function says come to what the function comes to. -/
theorem foldlM_eq_foldl {σ : Type} {step : σ → α → Except ε σ} (next : σ → α → σ) {list : List α}
    (each : ∀ a ∈ list, ∀ s, step s a = .ok (next s a)) (start : σ) :
    list.foldlM step start = .ok (list.foldl next start) := by
  induction list generalizing start with
  | nil => rfl
  | cons a rest ih =>
      obtain ⟨here, later⟩ := List.forall_mem_cons.mp each
      rw [List.foldlM_cons, here]
      exact ih later _

end SchemaModules.Outcome
