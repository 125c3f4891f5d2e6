import Mathlib.Data.List.Induction
import SchemaModules.Proofs.Graph
import SchemaModules.Proofs.Graph.Reachability

/-! # Graphs that were put together

A graph is put together from nothing by adding nodes and edges one after another. The direct
dependencies of an id are then the targets of the edges that were added from it, each once and in
the order in which they were first added (`directDeps_ofAdditions`), and every id that was mentioned
is a node (`mem_nodes_ofAdditions`).
-/

namespace SchemaModules

theorem nodup_eraseDups (ids : List String) : ids.eraseDups.Nodup := by
  match ids with
  | [] => exact .nil
  | id :: rest =>
      rw [List.eraseDups_cons, List.nodup_cons, List.mem_eraseDups]
      exact ⟨by simp, nodup_eraseDups _⟩
termination_by ids.length
decreasing_by exact Nat.lt_succ_of_le (List.length_filter_le ..)

/-- An id at the end of others counts if it is none of them. -/
theorem eraseDups_concat (ids : List String) (id : String) :
    (ids ++ [id]).eraseDups = if id ∈ ids then ids.eraseDups else ids.eraseDups ++ [id] := by
  rw [List.eraseDups_append]
  by_cases again : id ∈ ids
  · simp [again, List.removeAll]
  · simp [again, List.removeAll, List.eraseDups_cons]

namespace Graph

/-- What is added to a graph at a time. -/
inductive Addition where
  | node (id : String)
  | edge (source target : String)
  deriving DecidableEq

namespace Addition

/-- The ids that an addition mentions. -/
def mentions : Addition → List String
  | .node id => [id]
  | .edge source target => [source, target]

/-- What an addition makes a dependency of an id, if it does. -/
def target? (id : String) : Addition → Option String
  | .node _ => none
  | .edge source target => if source = id then some target else none

theorem target?_eq_some_iff {a : Addition} {id target : String} :
    a.target? id = some target ↔ a = .edge id target := by
  cases a with
  | node => simp [target?]
  | edge source other =>
      by_cases same : source = id
      · simp [target?, same]
      · simp [target?, same]

end Addition

/-- The graph with an addition. -/
def add (g : Graph) : Addition → Graph
  | .node id => g.addNode id
  | .edge source target => g.addEdge source target

/-- The graph of additions one after another. -/
def ofAdditions (additions : List Addition) : Graph := additions.foldl add empty

/-- The targets of the edges that were added from an id, in the order of the additions. -/
def targets (additions : List Addition) (id : String) : List String :=
  additions.filterMap (·.target? id)

/-- An edge from one id to another was added. -/
def Added (additions : List Addition) (a b : String) : Prop := .edge a b ∈ additions

variable {additions : List Addition} {id : String}

theorem ofAdditions_concat (additions : List Addition) (a : Addition) :
    ofAdditions (additions ++ [a]) = (ofAdditions additions).add a := by
  unfold ofAdditions
  rw [List.foldl_append]
  rfl

theorem mem_nodes_add {g : Graph} {a : Addition} :
    id ∈ (g.add a).nodes ↔ id ∈ g.nodes ∨ id ∈ a.mentions := by
  have added : ∀ (g : Graph) (other : String),
      id ∈ (g.addNode other).nodes ↔ id ∈ g.nodes ∨ id = other := by
    intro g other
    rw [nodes_addNode]
    split
    · next known =>
        rw [contains_iff] at known
        exact ⟨.inl, fun member => member.elim (·) (· ▸ known)⟩
    · rw [List.mem_append, List.mem_singleton]
  cases a with
  | node other => simp [add, added, Addition.mentions]
  | edge source target => simp [add, nodes_addEdge, added, Addition.mentions, or_assoc]

theorem mem_nodes_ofAdditions :
    id ∈ (ofAdditions additions).nodes ↔ ∃ a ∈ additions, id ∈ a.mentions := by
  induction additions using List.reverseRecOn with
  | nil => simp [ofAdditions, empty, nodes]
  | append_singleton additions a ih =>
      rw [ofAdditions_concat, mem_nodes_add, ih]
      simp [or_and_right, exists_or]

theorem directDeps_add (g : Graph) (a : Addition) (id : String) :
    (g.add a).directDeps id =
      match a.target? id with
      | some target => if target ∈ g.directDeps id then g.directDeps id
          else g.directDeps id ++ [target]
      | none => g.directDeps id := by
  cases a with
  | node other => simp [add, Addition.target?]
  | edge source target =>
      rw [add, directDeps_addEdge]
      by_cases same : source = id
      · by_cases known : target ∈ g.directDeps id
        · simp [Addition.target?, same, known]
        · simp [Addition.target?, same, known]
      · simp [Addition.target?, same, Ne.symm same]

/-- The direct dependencies of an id are the targets of the edges from it, each where it was first
added. -/
theorem directDeps_ofAdditions (additions : List Addition) (id : String) :
    (ofAdditions additions).directDeps id = (targets additions id).eraseDups := by
  induction additions using List.reverseRecOn with
  | nil => rfl
  | append_singleton additions a ih =>
      rw [ofAdditions_concat, directDeps_add, ih, targets, targets, List.filterMap_append]
      cases target : a.target? id with
      | none => simp [target]
      | some dep => simp [target, eraseDups_concat, List.mem_eraseDups]

theorem edge_ofAdditions : (ofAdditions additions).Edge = Added additions := by
  funext a b
  apply propext
  rw [Edge, directDeps_ofAdditions, List.mem_eraseDups, targets, List.mem_filterMap]
  constructor
  · intro member
    obtain ⟨addition, among, found⟩ := member
    obtain rfl := Addition.target?_eq_some_iff.mp found
    exact among
  · intro among
    exact ⟨_, among, Addition.target?_eq_some_iff.mpr rfl⟩

/-- An edge that was added leads from node to node. -/
theorem Added.mem_nodes {a b : String} (added : Added additions a b) :
    a ∈ (ofAdditions additions).nodes ∧ b ∈ (ofAdditions additions).nodes := by
  rw [mem_nodes_ofAdditions, mem_nodes_ofAdditions]
  constructor
  · exact ⟨_, added, List.mem_cons_self⟩
  · exact ⟨_, added, List.mem_cons_of_mem _ List.mem_cons_self⟩

end Graph

end SchemaModules
