import Mathlib.Data.List.Basic
import SchemaModules.Proofs.Graph.Additions
import SchemaModules.Proofs.Graph.Cycle

/-! # The recursion of a search in depth

A search in depth goes through ids one after another, and from each that is new through what it
depends on before it goes on (`Descends`). What it has visited and its trail are handed on from one
id to the next. The recursion comes back with one result, on every graph (`exists_descends`,
`Descends.unique`), and the search for a cycle gives what it comes back with. Hence it finds an id
on a cycle exactly if there is one (`findCycle_inDepth`).
-/

namespace SchemaModules.Graph

open Relation (TransGen)

/-- What a search in depth comes back with: an id that it met again on its trail, if it did, what it
has visited, and its trail. -/
structure Descent where
  found : Option String
  visited : List String
  trail : List String

/-- A search in depth goes through ids and comes back. An id on its trail stops it where it is. From
an id that it has not visited it goes down, and takes that off its trail when it is back. -/
inductive Descends (g : Graph) : (ids visited trail : List String) → Descent → Prop where
  | done {visited trail : List String} : Descends g [] visited trail ⟨none, visited, trail⟩
  | again {id : String} {ids visited trail : List String} (on : id ∈ trail) :
      Descends g (id :: ids) visited trail ⟨some id, visited, trail⟩
  | known {id : String} {ids visited trail : List String} {last : Descent} (off : id ∉ trail)
      (known : id ∈ visited) (rest : Descends g ids visited trail last) :
      Descends g (id :: ids) visited trail last
  | stopped {id cycle : String} {ids visited trail : List String} {last : Descent}
      (off : id ∉ trail) (new : id ∉ visited)
      (down : Descends g (g.directDeps id) (id :: visited) (id :: trail) last)
      (found : last.found = some cycle) : Descends g (id :: ids) visited trail last
  | back {id : String} {ids visited trail : List String} {lower last : Descent}
      (off : id ∉ trail) (new : id ∉ visited)
      (down : Descends g (g.directDeps id) (id :: visited) (id :: trail) lower)
      (none : lower.found = none)
      (rest : Descends g ids lower.visited (lower.trail.erase id) last) :
      Descends g (id :: ids) visited trail last

variable {g : Graph} {ids visited trail : List String}

theorem Descends.unique {first second : Descent} (one : Descends g ids visited trail first)
    (other : Descends g ids visited trail second) : first = second := by
  induction one generalizing second with
  | done =>
      cases other
      rfl
  | again on =>
      cases other with
      | again => rfl
      | known off | stopped off | back off => exact absurd on off
  | known off known rest ih =>
      cases other with
      | again on => exact absurd on off
      | known _ _ rest => exact ih rest
      | stopped _ new | back _ new => exact absurd known new
  | stopped off new down found ih =>
      cases other with
      | again on => exact absurd on off
      | known _ known => exact absurd known new
      | stopped _ _ down => exact ih down
      | back _ _ down none =>
          rw [← ih down, found] at none
          cases none
  | back off new down none rest downUnique restUnique =>
      cases other with
      | again on => exact absurd on off
      | known _ known => exact absurd known new
      | stopped _ _ down found =>
          rw [← downUnique down, none] at found
          cases found
      | back _ _ down _ rest =>
          obtain rfl := downUnique down
          exact restUnique rest

/-- The more was seen, the less is unseen. -/
theorem unseen_le_of_subset (g : Graph) {seen more : List String} (subset : seen ⊆ more) :
    g.unseen more ≤ g.unseen seen := by
  apply List.Sublist.length_le
  apply List.monotone_filter_right
  intro id absent
  simp only [decide_eq_true_eq] at absent ⊢
  exact fun member => absent (subset member)

/-- A search in depth comes back, and what is left to follow elsewhere is searched after that if it
has not found a cycle. -/
theorem exists_descends (g : Graph) (ids visited trail : List String) :
    ∃ last, Descends g ids visited trail last ∧ visited ⊆ last.visited ∧
      (last.found = none → last.trail = trail) ∧
      ∀ pending, g.searchCycle visited trail (ids :: pending) =
        last.found.or (g.searchCycle last.visited (trail.drop 1) pending) := by
  match ids with
  | [] =>
      refine ⟨_, .done, List.Subset.refl _, fun _ => rfl, ?_⟩
      intro pending
      rw [searchCycle, Option.none_or]
  | id :: ids =>
      by_cases on : id ∈ trail
      · refine ⟨_, .again on, List.Subset.refl _, fun _ => rfl, ?_⟩
        intro pending
        rw [searchCycle, if_pos on, Option.some_or]
      by_cases known : id ∈ visited
      · obtain ⟨last, rest, grown, same, answer⟩ := exists_descends g ids visited trail
        refine ⟨last, .known on known rest, grown, same, ?_⟩
        intro pending
        rw [searchCycle, if_neg on, if_pos known, answer]
      · obtain ⟨lower, down, grown, same, below⟩ :=
          exists_descends g (g.directDeps id) (id :: visited) (id :: trail)
        have more : visited ⊆ lower.visited := List.Subset.trans (List.subset_cons_self ..) grown
        cases found : lower.found with
        | some cycle =>
            refine ⟨lower, .stopped on known down found, more, by simp [found], ?_⟩
            intro pending
            rw [searchCycle, if_neg on, if_neg known, below, found]
            rfl
        | none =>
            have off : lower.trail.erase id = trail := by simp [same found]
            obtain ⟨last, rest, later, kept, answer⟩ := exists_descends g ids lower.visited trail
            refine ⟨last, .back on known down found (off ▸ rest), ?_, kept, ?_⟩
            · exact List.Subset.trans more later
            intro pending
            rw [searchCycle, if_neg on, if_neg known, below, found, Option.none_or, List.drop_one,
              List.tail_cons, answer]
termination_by (g.unseen visited, ids.length)
decreasing_by
  · apply Prod.Lex.right
    simp
  · by_cases node : id ∈ g.nodes
    · exact Prod.Lex.left _ _ (g.unseen_cons_lt node known)
    · rw [g.unseen_cons_of_not_mem node, g.directDeps_of_not_mem node]
      apply Prod.Lex.right
      simp
  · rcases Nat.lt_or_eq_of_le (g.unseen_le_of_subset more) with fewer | same
    · exact Prod.Lex.left _ _ fewer
    · rw [same]
      apply Prod.Lex.right
      simp

theorem descends_findCycle (g : Graph) :
    ∃ visited trail, Descends g g.nodes [] [] ⟨g.findCycle, visited, trail⟩ := by
  obtain ⟨last, descends, -, -, answer⟩ := exists_descends g g.nodes [] []
  have found : g.findCycle = last.found := by
    rw [findCycle, answer, searchCycle, Option.or_none]
  exact ⟨last.visited, last.trail, found ▸ descends⟩

/-- A search for a cycle comes to an end, in one way. It finds none exactly if no node leads back to
itself by one or more of the edges that were added, and what it finds is a node that does. -/
theorem findCycle_inDepth (additions : List Addition) :
    let g := ofAdditions additions
    (∃ visited trail, ∀ last,
        Descends g g.nodes [] [] last ↔ last = ⟨g.findCycle, visited, trail⟩) ∧
      (g.findCycle = none ↔ ∀ id ∈ g.nodes, ¬ TransGen (Added additions) id id) ∧
      ∀ id, g.findCycle = some id → id ∈ g.nodes ∧ TransGen (Added additions) id id := by
  intro g
  have edges : g.Edge = Added additions := edge_ofAdditions
  have onCycle : ∀ id, g.findCycle = some id → id ∈ g.nodes ∧ TransGen (Added additions) id id := by
    intro id found
    have cycle : TransGen (Added additions) id id := edges ▸ cycle_of_findCycle found
    obtain ⟨_, first, -⟩ := TransGen.head'_iff.mp cycle
    exact ⟨(Added.mem_nodes first).1, cycle⟩
  refine ⟨?_, ?_, onCycle⟩
  · obtain ⟨visited, trail, descends⟩ := descends_findCycle g
    refine ⟨visited, trail, fun last => ⟨fun other => other.unique descends, ?_⟩⟩
    rintro rfl
    exact descends
  · constructor
    · intro none id _
      exact edges ▸ acyclic_of_findCycle none id
    · intro acyclic
      cases found : g.findCycle with
      | none => rfl
      | some id =>
          obtain ⟨node, cycle⟩ := onCycle id found
          exact absurd cycle (acyclic id node)

end SchemaModules.Graph
