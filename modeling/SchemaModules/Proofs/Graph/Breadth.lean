import Mathlib.Logic.Function.Iterate
import Mathlib.Order.Lattice.Nat
import SchemaModules.Proofs.Graph.Additions

/-! # The order of a search in breadth

A search in breadth takes one id after another from its queue (`round`) and comes to an end when
each id that was ever put there has been taken (`iterate_round`). What waits in the queue is at one
distance from the source, and behind that at the next (`Levels`); each round keeps that, and nearer
ids have all been seen. So ids are found in the order of their distances
(`pairwise_transitiveDeps`).
-/

namespace SchemaModules.Graph

open Relation (TransGen)

/-- A walk of a number of edges from an id to another. -/
inductive Walk (edge : String → String → Prop) (source : String) : Nat → String → Prop where
  | here : Walk edge source 0 source
  | step {n : Nat} {a b : String} (walk : Walk edge source n a) (next : edge a b) :
      Walk edge source (n + 1) b

/-- The number of edges of a shortest walk. -/
noncomputable def distance (edge : String → String → Prop) (source id : String) : Nat :=
  sInf {n | Walk edge source n id}

section Walk

variable {edge : String → String → Prop} {source a b : String}

theorem Walk.exists_of_transGen (path : TransGen edge source b) : ∃ n, Walk edge source n b := by
  induction path with
  | single next => exact ⟨1, .step .here next⟩
  | tail _ next ih =>
      obtain ⟨n, walk⟩ := ih
      exact ⟨n + 1, .step walk next⟩

/-- An id to which every walk is as long as some walk to another is as far. -/
theorem distance_le_distance (reached : TransGen edge source b)
    (nearer : ∀ n, Walk edge source n b → ∃ m ≤ n, Walk edge source m a) :
    distance edge source a ≤ distance edge source b := by
  have shortest : Walk edge source (distance edge source b) b :=
    Nat.sInf_mem (Walk.exists_of_transGen reached)
  obtain ⟨m, shorter, walk⟩ := nearer _ shortest
  have least : distance edge source a ≤ m := Nat.sInf_le walk
  exact least.trans shorter

end Walk

/-! ## Rounds -/

/-- Where a search in breadth stands: what it has seen, what it has found, and what waits. -/
structure Frontier where
  seen : List String
  found : List String
  queue : List String

/-- One round of a search in breadth: the first id that waits is found if it is new, and what it
depends on waits then. -/
def round (g : Graph) : Frontier → Frontier
  | ⟨seen, found, []⟩ => ⟨seen, found, []⟩
  | ⟨seen, found, id :: queue⟩ =>
      if id ∈ seen then ⟨seen, found, queue⟩
      else ⟨id :: seen, found ++ [id], queue ++ g.directDeps id⟩

/-- After one round for each id that ever waits, none is left. -/
theorem iterate_round (g : Graph) (seen found queue : List String) :
    g.round^[(queue ++ (g.reach seen queue).flatMap g.directDeps).length] ⟨seen, found, queue⟩ =
      ⟨(g.reach seen queue).reverse ++ seen, found ++ g.reach seen queue, []⟩ := by
  fun_induction reach g seen queue generalizing found with
  | case1 => simp
  | case2 seen first queue known ih =>
      rw [List.cons_append, List.length_cons, Function.iterate_succ_apply, ← ih, round,
        if_pos known]
  | case3 seen first queue new ih =>
      have rest := ih (found ++ [first])
      rw [List.cons_append, List.length_cons, Function.iterate_succ_apply, round, if_neg new,
        List.flatMap_cons, ← List.append_assoc, rest]
      simp

/-! ## Levels -/

/-- What waits in the queue of a search is at one distance from the source at first, and then at the
next. What is nearer has been seen, and so has what is not in the queue of what edges lead to. -/
structure Levels (g : Graph) (source : String) (depth : Nat) (seen now next : List String) :
    Prop where
  now_walk : ∀ id ∈ now, Walk g.Edge source (depth + 1) id
  next_walk : ∀ id ∈ next, Walk g.Edge source (depth + 2) id
  near : ∀ n id, n ≤ depth → Walk g.Edge source n id → id ∈ seen
  level : ∀ id, Walk g.Edge source (depth + 1) id → id ∈ seen ∨ id ∈ now
  followed : ∀ id ∈ seen, ∀ dep, g.Edge id dep → dep ∈ seen ∨ dep ∈ now ∨ dep ∈ next

section Levels

variable {g : Graph} {source id : String} {depth : Nat} {seen now next queue : List String}

theorem levels_start (g : Graph) (source : String) :
    Levels g source 0 [source] (g.directDeps source) [] where
  now_walk _ direct := .step .here direct
  next_walk _ impossible := absurd impossible List.not_mem_nil
  near n id none walk := by
    obtain rfl := Nat.le_zero.mp none
    cases walk
    exact List.mem_cons_self
  level id walk := by
    cases walk with
    | step start edge =>
        cases start
        exact .inr edge
  followed id start dep edge := by
    obtain rfl := List.mem_singleton.mp start
    exact .inr (.inl edge)

/-- Where nothing waits at a distance, the search goes on at the next. -/
theorem Levels.deepen (levels : Levels g source depth seen [] next) :
    Levels g source (depth + 1) seen next [] where
  now_walk := levels.next_walk
  next_walk _ impossible := absurd impossible List.not_mem_nil
  near n id within walk := by
    rcases Nat.le_succ_iff.mp within with nearer | rfl
    · exact levels.near n id nearer walk
    · exact (levels.level id walk).resolve_right List.not_mem_nil
  level id walk := by
    cases walk with
    | step before edge =>
        have passed := (levels.level _ before).resolve_right List.not_mem_nil
        exact (levels.followed _ passed id edge).imp_right (·.resolve_left List.not_mem_nil)
  followed id member dep edge := by
    rcases levels.followed id member dep edge with known | impossible | waiting
    · exact .inl known
    · exact absurd impossible List.not_mem_nil
    · exact .inr (.inl waiting)

/-- The first id that waits is at the distance at which the search is. -/
theorem Levels.exists_first (levels : Levels g source depth seen now next)
    (split : now ++ next = id :: queue) :
    ∃ depth now next, queue = now ++ next ∧ Levels g source depth seen (id :: now) next := by
  cases now with
  | cons first now =>
      obtain ⟨rfl, rfl⟩ := List.cons_eq_cons.mp split
      exact ⟨depth, now, next, rfl, levels⟩
  | nil =>
      obtain rfl : next = id :: queue := split
      exact ⟨depth + 1, queue, [], (List.append_nil queue).symm, levels.deepen⟩

/-- An id that was seen is passed. -/
theorem Levels.skip (levels : Levels g source depth seen (id :: now) next) (known : id ∈ seen) :
    Levels g source depth seen now next where
  now_walk other waiting := levels.now_walk other (List.mem_cons_of_mem _ waiting)
  next_walk := levels.next_walk
  near := levels.near
  level other walk := by
    rcases levels.level other walk with early | waiting
    · exact .inl early
    · rcases List.mem_cons.mp waiting with rfl | rest
      · exact .inl known
      · exact .inr rest
  followed other member dep edge := by
    rcases levels.followed other member dep edge with early | waiting | later
    · exact .inl early
    · rcases List.mem_cons.mp waiting with rfl | rest
      · exact .inl known
      · exact .inr (.inl rest)
    · exact .inr (.inr later)

/-- An id is seen, and what it depends on waits at the next distance. -/
theorem Levels.take (levels : Levels g source depth seen (id :: now) next) :
    Levels g source depth (id :: seen) now (next ++ g.directDeps id) where
  now_walk other waiting := levels.now_walk other (List.mem_cons_of_mem _ waiting)
  next_walk other waiting := by
    rcases List.mem_append.mp waiting with early | direct
    · exact levels.next_walk other early
    · exact .step (levels.now_walk id List.mem_cons_self) direct
  near n other within walk := List.mem_cons_of_mem _ (levels.near n other within walk)
  level other walk := by
    rcases levels.level other walk with early | waiting
    · exact .inl (List.mem_cons_of_mem _ early)
    · rcases List.mem_cons.mp waiting with rfl | rest
      · exact .inl List.mem_cons_self
      · exact .inr rest
  followed other member dep edge := by
    rcases List.mem_cons.mp member with rfl | early
    · exact .inr (.inr (List.mem_append_right _ edge))
    · rcases levels.followed other early dep edge with known | waiting | later
      · exact .inl (List.mem_cons_of_mem _ known)
      · rcases List.mem_cons.mp waiting with rfl | rest
        · exact .inl List.mem_cons_self
        · exact .inr (.inl rest)
      · exact .inr (.inr (List.mem_append_left _ later))

/-- A search finds an id only after those to which there are shorter walks. -/
theorem Levels.pairwise_reach (levels : Levels g source depth seen now next) :
    (g.reach seen (now ++ next)).Pairwise fun a b =>
      ∀ n, Walk g.Edge source n b → ∃ m ≤ n, Walk g.Edge source m a := by
  generalize split : now ++ next = queue
  fun_induction reach g seen queue generalizing depth now next with
  | case1 => exact .nil
  | case2 seen first queue known ih =>
      obtain ⟨depth, now, next, rfl, levels⟩ := levels.exists_first split
      exact ih (levels.skip known) rfl
  | case3 seen first queue new ih =>
      obtain ⟨depth, now, next, rfl, levels⟩ := levels.exists_first split
      apply List.Pairwise.cons
      · -- What is found later was not seen, so it is no nearer than where the search is.
        intro b later n walk
        refine ⟨depth + 1, ?_, levels.now_walk first List.mem_cons_self⟩
        apply Nat.lt_of_not_le
        intro within
        exact (reach_sound later).1 (List.mem_cons_of_mem _ (levels.near n b within walk))
      · exact ih levels.take (List.append_assoc ..).symm

end Levels

/-- The dependencies of an id come in the order of their distances from it. -/
theorem pairwise_transitiveDeps (g : Graph) (id : String) :
    (g.transitiveDeps id).Pairwise fun a b =>
      distance g.Edge id a ≤ distance g.Edge id b := by
  have pairs := (levels_start g id).pairwise_reach
  rw [List.append_nil] at pairs
  apply List.Pairwise.imp_of_mem ?_ pairs
  intro a b _ found nearer
  exact distance_le_distance (mem_transitiveDeps_iff.mp found).2 nearer

/-- A search for the dependencies of an id comes to an end, and finds them: each other id that one
or more edges lead to from it once, in the order of their distances, and the direct ones first as
they were added. -/
theorem transitiveDeps_inBreadth (additions : List Addition) (id : String) :
    let g := ofAdditions additions
    let found := g.transitiveDeps id
    g.round^[(g.directDeps id ++ found.flatMap g.directDeps).length]
        ⟨[id], [], g.directDeps id⟩ = ⟨found.reverse ++ [id], found, []⟩ ∧
      found.Nodup ∧
      (∀ other, other ∈ found ↔
        other ∈ g.nodes ∧ other ≠ id ∧ TransGen (Added additions) id other) ∧
      found.Pairwise (fun a b =>
        distance (Added additions) id a ≤ distance (Added additions) id b) ∧
      (targets additions id).eraseDups.filter (· ≠ id) <+: found := by
  intro g found
  have edges : g.Edge = Added additions := edge_ofAdditions
  have direct : g.directDeps id = (targets additions id).eraseDups := directDeps_ofAdditions ..
  refine ⟨g.iterate_round [id] [] (g.directDeps id), nodup_reach .., ?_, ?_, ?_⟩
  · intro other
    rw [← edges, mem_transitiveDeps_iff, iff_and_self]
    intro reached
    obtain ⟨_, -, last⟩ := TransGen.tail'_iff.mp reached.2
    exact (Added.mem_nodes (edges ▸ last)).2
  · exact edges ▸ g.pairwise_transitiveDeps id
  · rw [← direct]
    exact filter_directDeps_prefix (direct ▸ nodup_eraseDups _)

end SchemaModules.Graph
