import Mathlib.Logic.Relation
import SchemaModules.Graph

/-! # What a node depends on

A search finds what edges lead to from its start without passing what it has seen, and each id once.
So the dependencies of a node are the other ids that one or more edges lead to from it
(`mem_transitiveDeps_iff`).
-/

namespace SchemaModules.Graph

open Relation (ReflTransGen TransGen)

variable {g : Graph}

/-- An edge leads from an id to another. -/
def Edge (g : Graph) (a b : String) : Prop := b ∈ g.directDeps a

theorem reach_sound {seen queue : List String} {b : String} (found : b ∈ g.reach seen queue) :
    b ∉ seen ∧ ∃ a ∈ queue, ReflTransGen g.Edge a b := by
  fun_induction reach g seen queue with
  | case1 => exact absurd found List.not_mem_nil
  | case2 seen first queue _ ih =>
      obtain ⟨unseen, a, waiting, path⟩ := ih found
      exact ⟨unseen, a, List.mem_cons_of_mem _ waiting, path⟩
  | case3 seen first queue unseen ih =>
      rcases List.mem_cons.mp found with rfl | later
      · exact ⟨unseen, b, List.mem_cons_self, .refl⟩
      · obtain ⟨other, a, waiting, path⟩ := ih later
        refine ⟨fun early => other (List.mem_cons_of_mem _ early), ?_⟩
        rcases List.mem_append.mp waiting with early | followed
        · exact ⟨a, List.mem_cons_of_mem _ early, path⟩
        · exact ⟨first, List.mem_cons_self, .head followed path⟩

/-- What a search starts from and where edges lead from what it finds, it has seen or it finds. -/
theorem reach_closed (g : Graph) (seen queue : List String) :
    (∀ a ∈ queue, a ∈ seen ∨ a ∈ g.reach seen queue) ∧
      ∀ a ∈ g.reach seen queue, ∀ b, g.Edge a b → b ∈ seen ∨ b ∈ g.reach seen queue := by
  fun_induction reach g seen queue with
  | case1 =>
      refine ⟨?_, ?_⟩
      · exact fun _ waiting => absurd waiting List.not_mem_nil
      · exact fun _ found => absurd found List.not_mem_nil
  | case2 seen first queue known ih =>
      refine ⟨?_, ih.2⟩
      intro a waiting
      rcases List.mem_cons.mp waiting with rfl | later
      · exact .inl known
      · exact ih.1 a later
  | case3 seen first queue _ ih =>
      -- What counts as seen in the rest of the search is seen here or is the first id, which is
      -- found.
      have back : ∀ a,
          a ∈ first :: seen ∨ a ∈ g.reach (first :: seen) (queue ++ g.directDeps first) →
          a ∈ seen ∨ a ∈ first :: g.reach (first :: seen) (queue ++ g.directDeps first) := by
        intro a located
        rcases located with early | found
        · rcases List.mem_cons.mp early with rfl | known
          · exact .inr List.mem_cons_self
          · exact .inl known
        · exact .inr (List.mem_cons_of_mem _ found)
      refine ⟨?_, ?_⟩
      · intro a waiting
        rcases List.mem_cons.mp waiting with rfl | later
        · exact .inr List.mem_cons_self
        · exact back a (ih.1 a (List.mem_append_left _ later))
      · intro a found b edge
        rcases List.mem_cons.mp found with rfl | later
        · exact back b (ih.1 b (List.mem_append_right _ edge))
        · exact back b (ih.2 a later b edge)

theorem nodup_reach (g : Graph) (seen queue : List String) : (g.reach seen queue).Nodup := by
  fun_induction reach g seen queue with
  | case1 => exact .nil
  | case2 _ _ _ _ ih => exact ih
  | case3 seen first queue _ ih =>
      refine List.nodup_cons.mpr ⟨?_, ih⟩
      intro again
      exact (reach_sound again).1 List.mem_cons_self

/-- A search goes by the direct dependencies of ids alone, and not by the order of the nodes. -/
theorem reach_congr {h : Graph} (same : ∀ id, g.directDeps id = h.directDeps id)
    (seen queue : List String) : g.reach seen queue = h.reach seen queue := by
  fun_induction reach g seen queue with
  | case1 => rw [reach]
  | case2 seen first queue known ih => rw [reach, if_pos known, ih]
  | case3 seen first queue new ih => rw [reach, if_neg new, ih, same]

theorem transitiveDeps_congr {h : Graph} (same : ∀ id, g.directDeps id = h.directDeps id)
    (id : String) : g.transitiveDeps id = h.transitiveDeps id := by
  unfold transitiveDeps
  rw [reach_congr same, same]

/-- A search finds what is new of what it starts from before anything else. -/
theorem filter_prefix_reach (g : Graph) (seen : List String) {queue : List String}
    (distinct : queue.Nodup) (rest : List String) :
    queue.filter (· ∉ seen) <+: g.reach seen (queue ++ rest) := by
  induction queue generalizing seen rest with
  | nil => exact List.nil_prefix
  | cons id queue ih =>
      obtain ⟨once, others⟩ := List.nodup_cons.mp distinct
      rw [List.cons_append, reach]
      by_cases known : id ∈ seen
      · rw [if_pos known, List.filter_cons_of_neg (by simpa using known)]
        exact ih seen others rest
      · rw [if_neg known, List.filter_cons_of_pos (by simpa using known), List.cons_prefix_cons,
          List.append_assoc]
        refine ⟨rfl, ?_⟩
        have same : queue.filter (· ∉ id :: seen) = queue.filter (· ∉ seen) := by
          apply List.filter_congr
          intro other member
          simp [ne_of_mem_of_not_mem member once]
        rw [← same]
        exact ih (id :: seen) others _

/-- The direct dependencies of a node come first, but for the node itself. -/
theorem filter_directDeps_prefix {id : String} (distinct : (g.directDeps id).Nodup) :
    (g.directDeps id).filter (· ≠ id) <+: g.transitiveDeps id := by
  simpa [transitiveDeps] using g.filter_prefix_reach [id] distinct []

/-- The direct dependencies of a node come first, if it is not one of them. -/
theorem directDeps_prefix {id : String} (distinct : (g.directDeps id).Nodup)
    (apart : id ∉ g.directDeps id) : g.directDeps id <+: g.transitiveDeps id := by
  have others : (g.directDeps id).filter (· ≠ id) = g.directDeps id := by
    rw [List.filter_eq_self]
    intro dep direct
    exact decide_eq_true (ne_of_mem_of_not_mem direct apart)
  exact others ▸ filter_directDeps_prefix distinct

/-- The dependencies of a node are the other ids that edges lead to from it. -/
theorem mem_transitiveDeps_iff {a b : String} :
    b ∈ g.transitiveDeps a ↔ b ≠ a ∧ TransGen g.Edge a b := by
  constructor
  · intro found
    obtain ⟨other, c, direct, path⟩ := reach_sound found
    exact ⟨fun same => other (List.mem_singleton.mpr same), .head' direct path⟩
  · rintro ⟨other, path⟩
    obtain ⟨started, closed⟩ := reach_closed g [a] (g.directDeps a)
    have located : b ∈ [a] ∨ b ∈ g.transitiveDeps a := by
      induction path with
      | single edge => exact started _ edge
      | @tail c b _ edge ih =>
          by_cases back : c = a
          · exact started b (back ▸ edge)
          · rcases ih back with here | found
            · exact absurd (List.mem_singleton.mp here) back
            · exact closed c found b edge
    exact located.resolve_left fun here => other (List.mem_singleton.mp here)

end SchemaModules.Graph
