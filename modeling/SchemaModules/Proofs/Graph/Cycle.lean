import SchemaModules.Proofs.Graph.Reachability

/-! # The search for a cycle

The trail of a search in depth leads along edges, and from what the search is done with, edges lead
only to what it is done with (`Searching`). Each step of the search keeps that. So an id that it
meets again on its trail is on a cycle (`cycle_of_findCycle`), and if it meets none, there is no
cycle in the graph (`acyclic_of_findCycle`).
-/

namespace SchemaModules.Graph

open Relation (ReflTransGen TransGen)

variable {g : Graph}

/-- A search is done with an id that it has visited and that is not on its trail. -/
def Finished (visited trail : List String) (id : String) : Prop := id ∈ visited ∧ id ∉ trail

/-- A trail leads along edges and goes on to an id, if one is given. What is left to follow from an
id of the trail are dependencies of it; the others are finished with, or the trail goes on there.
From the outside, what is left of the nodes is so. -/
inductive Follows (g : Graph) (finished : String → Prop) :
    (next : Option String) → (trail : List String) → (pending : List (List String)) → Prop where
  | outside {next : Option String} {left : List String}
      (covered : ∀ id ∈ g.nodes, id ∈ left ∨ finished id ∨ next = some id) :
      Follows g finished next [] [left]
  | inside {next : Option String} {id : String} {left trail : List String}
      {pending : List (List String)}
      (edges : ∀ dep, dep ∈ left ∨ next = some dep → g.Edge id dep)
      (covered : ∀ dep, g.Edge id dep → dep ∈ left ∨ finished dep ∨ next = some dep)
      (rest : Follows g finished (some id) trail pending) :
      Follows g finished next (id :: trail) (left :: pending)

section Follows

variable {finished later : String → Prop} {next : Option String} {id : String}
  {ids trail : List String} {pending : List (List String)}

theorem Follows.mono (follows : Follows g finished next trail pending)
    (more : ∀ id, finished id → later id) : Follows g later next trail pending := by
  induction follows with
  | outside covered =>
      exact .outside fun id node => (covered id node).imp_right (Or.imp_left (more id))
  | inside edges covered _ ih =>
      exact .inside edges (fun dep edge => (covered dep edge).imp_right (Or.imp_left (more dep))) ih

/-- From every id of a trail edges lead to where the trail goes on. -/
theorem Follows.path (follows : Follows g finished (some id) trail pending) :
    ∀ a ∈ trail, TransGen g.Edge a id := by
  generalize goesOn : some id = next at follows
  induction follows generalizing id with
  | outside => exact fun _ member => absurd member List.not_mem_nil
  | inside edges _ _ ih =>
      have edge := edges id (.inr goesOn.symm)
      intro a member
      rcases List.mem_cons.mp member with rfl | earlier
      · exact .single edge
      · exact (ih rfl a earlier).tail edge

/-- The first of what is left to follow is where the trail goes on. -/
theorem Follows.enter (follows : Follows g finished none trail ((id :: ids) :: pending)) :
    Follows g finished (some id) trail (ids :: pending) := by
  have shift : ∀ dep, dep ∈ id :: ids ∨ finished dep ∨ none = some dep →
      dep ∈ ids ∨ finished dep ∨ some id = some dep := by
    rintro dep (waiting | done | ⟨⟨⟩⟩)
    · rcases List.mem_cons.mp waiting with rfl | other
      · exact .inr (.inr rfl)
      · exact .inl other
    · exact .inr (.inl done)
  cases follows with
  | outside covered => exact .outside fun dep node => shift dep (covered dep node)
  | inside edges covered rest =>
      refine .inside ?_ (fun dep edge => shift dep (covered dep edge)) rest
      rintro dep (waiting | same)
      · exact edges dep (.inl (List.mem_cons_of_mem _ waiting))
      · obtain rfl := Option.some.inj same
        exact edges id (.inl List.mem_cons_self)

/-- Where the search comes back from an id that it is done with, it goes on as before. -/
theorem Follows.leave (follows : Follows g finished (some id) trail pending) (done : finished id) :
    Follows g finished none trail pending := by
  have shift : ∀ {left : List String} {dep : String},
      dep ∈ left ∨ finished dep ∨ some id = some dep →
      dep ∈ left ∨ finished dep ∨ none = some dep := by
    rintro left dep (waiting | other | same)
    · exact .inl waiting
    · exact .inr (.inl other)
    · exact .inr (.inl (Option.some.inj same ▸ done))
  cases follows with
  | outside covered => exact .outside fun dep node => shift (covered dep node)
  | inside edges covered rest =>
      refine .inside ?_ (fun dep edge => shift (covered dep edge)) rest
      rintro dep (waiting | ⟨⟨⟩⟩)
      exact edges dep (.inl waiting)

end Follows

/-- What holds wherever a search in depth stands: its trail leads there, and what it is done with
has no cycle and no edges to the rest. -/
structure Searching (g : Graph) (visited trail : List String) (pending : List (List String)) :
    Prop where
  follows : Follows g (Finished visited trail) none trail pending
  nodup : trail.Nodup
  known : ∀ id ∈ trail, id ∈ visited
  closed : ∀ a b, Finished visited trail a → g.Edge a b → Finished visited trail b
  acyclic : ∀ id, Finished visited trail id → ¬ TransGen g.Edge id id

section Searching

variable {id : String} {ids visited trail : List String} {pending : List (List String)}

theorem searching_start (g : Graph) : Searching g [] [] [g.nodes] where
  follows := .outside fun _ node => .inl node
  nodup := .nil
  known _ member := absurd member List.not_mem_nil
  closed _ _ done := absurd done.1 List.not_mem_nil
  acyclic _ done := absurd done.1 List.not_mem_nil

theorem Searching.finished_of_path (searching : Searching g visited trail pending) {a b : String}
    (path : ReflTransGen g.Edge a b) (done : Finished visited trail a) :
    Finished visited trail b := by
  induction path with
  | refl => exact done
  | tail _ edge ih => exact searching.closed _ _ ih edge

/-- Passing an id that the search is done with. -/
theorem Searching.skip (searching : Searching g visited trail ((id :: ids) :: pending))
    (done : Finished visited trail id) : Searching g visited trail (ids :: pending) :=
  { searching with follows := searching.follows.enter.leave done }

/-- Going on to an id that is new. -/
theorem Searching.enter (searching : Searching g visited trail ((id :: ids) :: pending))
    (new : id ∉ visited) :
    Searching g (id :: visited) (id :: trail) (g.directDeps id :: ids :: pending) := by
  have same : ∀ a, Finished (id :: visited) (id :: trail) a ↔ Finished visited trail a := by
    intro a
    by_cases here : a = id
    · subst here
      simp [Finished, new]
    · simp [Finished, here]
  refine ⟨?_, ?_, ?_, ?_, ?_⟩
  · refine .inside ?_ (fun dep edge => .inl edge)
      (searching.follows.enter.mono fun a done => (same a).mpr done)
    rintro dep (waiting | ⟨⟨⟩⟩)
    exact waiting
  · exact List.nodup_cons.mpr ⟨fun again => new (searching.known id again), searching.nodup⟩
  · intro a member
    rcases List.mem_cons.mp member with rfl | earlier
    · exact List.mem_cons_self
    · exact List.mem_cons_of_mem _ (searching.known a earlier)
  · intro a b done edge
    exact (same b).mpr (searching.closed a b ((same a).mp done) edge)
  · exact fun a done => searching.acyclic a ((same a).mp done)

/-- Going back from an id from which nothing is left to follow: the search is done with it. -/
theorem Searching.back (searching : Searching g visited (id :: trail) ([] :: pending)) :
    Searching g visited trail pending := by
  obtain ⟨fresh, nodup⟩ := List.nodup_cons.mp searching.nodup
  have here : Finished visited trail id := ⟨searching.known id List.mem_cons_self, fresh⟩
  have widen : ∀ a, Finished visited (id :: trail) a → Finished visited trail a := fun a done =>
    ⟨done.1, fun member => done.2 (List.mem_cons_of_mem _ member)⟩
  have narrow : ∀ a, Finished visited trail a → a = id ∨ Finished visited (id :: trail) a := by
    intro a done
    by_cases same : a = id
    · exact .inl same
    · exact .inr ⟨done.1, by simp [same, done.2]⟩
  cases searching.follows with
  | inside edges covered rest =>
  have ends : ∀ b, g.Edge id b → Finished visited (id :: trail) b := by
    intro b edge
    rcases covered b edge with impossible | done | ⟨⟨⟩⟩
    · exact absurd impossible List.not_mem_nil
    · exact done
  refine ⟨(rest.mono widen).leave here, nodup, ?_, ?_, ?_⟩
  · exact fun a member => searching.known a (List.mem_cons_of_mem _ member)
  · intro a b done edge
    rcases narrow a done with rfl | before
    · exact widen b (ends b edge)
    · exact widen b (searching.closed a b before edge)
  · intro a done cycle
    rcases narrow a done with rfl | before
    · -- All that edges lead to from here was done with before, and this was not.
      obtain ⟨b, edge, path⟩ := TransGen.head'_iff.mp cycle
      exact (searching.finished_of_path path (ends b edge)).2 List.mem_cons_self
    · exact searching.acyclic a before cycle

/-- A search that comes to its end has found all nodes without a cycle. -/
theorem Searching.acyclic_of_end (searching : Searching g visited [] ([] :: pending))
    (id : String) : ¬ TransGen g.Edge id id := by
  intro cycle
  have node : id ∈ g.nodes := by
    obtain ⟨b, edge, -⟩ := TransGen.head'_iff.mp cycle
    refine Decidable.byContradiction fun other => ?_
    rw [Edge, g.directDeps_of_not_mem other] at edge
    exact absurd edge List.not_mem_nil
  cases searching.follows with
  | outside covered =>
      rcases covered id node with impossible | done | ⟨⟨⟩⟩
      · exact absurd impossible List.not_mem_nil
      · exact searching.acyclic id done cycle

theorem Searching.cycle_of_found (searching : Searching g visited trail pending) {found : String}
    (answer : g.searchCycle visited trail pending = some found) :
    TransGen g.Edge found found := by
  fun_induction searchCycle g visited trail pending with
  | case1 => cases answer
  | case2 visited trail pending ih =>
      cases trail with
      | cons id trail => exact ih searching.back answer
      | nil =>
          cases searching.follows with
          | outside => simp [searchCycle] at answer
  | case3 visited trail id ids pending again =>
      obtain rfl := Option.some.inj answer
      exact searching.follows.enter.path id again
  | case4 visited trail id ids pending off known ih => exact ih (searching.skip ⟨known, off⟩) answer
  | case5 visited trail id ids pending off new ih => exact ih (searching.enter new) answer

theorem Searching.acyclic_of_none (searching : Searching g visited trail pending)
    (answer : g.searchCycle visited trail pending = none) (id : String) :
    ¬ TransGen g.Edge id id := by
  fun_induction searchCycle g visited trail pending with
  | case1 => cases searching.follows
  | case2 visited trail pending ih =>
      cases trail with
      | cons id trail => exact ih searching.back answer
      | nil => exact searching.acyclic_of_end id
  | case3 => cases answer
  | case4 visited trail id ids pending off known ih => exact ih (searching.skip ⟨known, off⟩) answer
  | case5 visited trail id ids pending off new ih => exact ih (searching.enter new) answer

end Searching

/-- An id that the search finds is on a cycle. -/
theorem cycle_of_findCycle {id : String} (found : g.findCycle = some id) : TransGen g.Edge id id :=
  (searching_start g).cycle_of_found found

/-- Where the search finds none, there is no cycle. -/
theorem acyclic_of_findCycle (found : g.findCycle = none) (id : String) : ¬ TransGen g.Edge id id :=
  (searching_start g).acyclic_of_none found id

end SchemaModules.Graph
