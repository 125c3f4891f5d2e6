/-!
# Dependency graphs

A graph of module ids, in which an edge leads from a module to one it depends on. Nodes and edges
keep the order in which they were added, and every answer follows that order.
-/

namespace SchemaModules

/-- A graph as its nodes in the order they were added, each with its direct dependencies in the
order they were added. -/
structure Graph where
  adjacency : List (String × List String)
  deriving DecidableEq, Repr

namespace Graph

/-- The graph without nodes. -/
def empty : Graph := ⟨[]⟩

/-- The nodes in the order they were added. -/
def nodes (g : Graph) : List String := g.adjacency.map Prod.fst

/-- Whether an id is a node. -/
def contains (g : Graph) (id : String) : Bool := id ∈ g.nodes

/-- The direct dependencies of a node in the order they were added; an id that is no node has
none. -/
def directDeps (g : Graph) (id : String) : List String :=
  ((g.adjacency.find? fun node => node.1 = id).map Prod.snd).getD []

/-- The graph with a node, put last if it is new. -/
def addNode (g : Graph) (id : String) : Graph :=
  if g.contains id then g else ⟨g.adjacency ++ [(id, [])]⟩

/-- The graph with a dependency, put last among those of its node if it is new. Ids that are no
nodes yet become nodes. -/
def addEdge (g : Graph) (source target : String) : Graph :=
  ⟨((g.addNode source).addNode target).adjacency.map fun node =>
    if node.1 = source ∧ target ∉ node.2 then (node.1, node.2 ++ [target]) else node⟩

/-- The number of nodes that are not among those seen. -/
def unseen (g : Graph) (seen : List String) : Nat :=
  (g.nodes.filter (· ∉ seen)).length

/-- Seeing a node makes fewer unseen. -/
theorem unseen_cons_lt (g : Graph) {seen : List String} {id : String} (node : id ∈ g.nodes)
    (new : id ∉ seen) : g.unseen (id :: seen) < g.unseen seen := by
  have narrowed : g.nodes.filter (· ∉ id :: seen)
      = (g.nodes.filter (· ∉ seen)).filter (· ≠ id) := by
    rw [List.filter_filter]
    apply List.filter_congr
    intro a _
    simp
  unfold unseen
  rw [narrowed, List.length_filter_lt_length_iff_exists]
  exact ⟨id, by simp [node, new], by simp⟩

/-- Seeing an id that is no node leaves as many unseen. -/
theorem unseen_cons_of_not_mem (g : Graph) {seen : List String} {id : String}
    (other : id ∉ g.nodes) : g.unseen (id :: seen) = g.unseen seen := by
  unfold unseen
  congr 1
  apply List.filter_congr
  intro a member
  have apart : a ≠ id := fun equal => other (equal ▸ member)
  simp [apart]

/-- An id that is no node has no dependencies. -/
theorem directDeps_of_not_mem (g : Graph) {id : String} (other : id ∉ g.nodes) :
    g.directDeps id = [] := by
  have missing : g.adjacency.find? (fun node => node.1 = id) = none := by
    rw [List.find?_eq_none]
    intro node member equal
    exact other (of_decide_eq_true equal ▸ List.mem_map_of_mem member)
  simp [directDeps, missing]

/-- The ids that are reached from a queue of ids without passing one that was seen, in the order of
a search in breadth. -/
def reach (g : Graph) (seen : List String) : (queue : List String) → List String
  | [] => []
  | id :: queue =>
      if id ∈ seen then g.reach seen queue
      else id :: g.reach (id :: seen) (queue ++ g.directDeps id)
termination_by queue => (g.unseen seen, queue.length)
decreasing_by
  · apply Prod.Lex.right
    simp
  · next new =>
      by_cases node : id ∈ g.nodes
      · exact Prod.Lex.left _ _ (g.unseen_cons_lt node new)
      · rw [g.unseen_cons_of_not_mem node, g.directDeps_of_not_mem node]
        apply Prod.Lex.right
        simp

/-- All dependencies of a node, the direct ones first; the node itself is not among them. -/
def transitiveDeps (g : Graph) (id : String) : List String :=
  g.reach [id] (g.directDeps id)

/-- The work that a search in depth has left on each level of its trail. -/
def pendingWork (pending : List (List String)) : Nat :=
  pending.foldr (fun ids work => 2 * ids.length + 1 + work) 0

/-- Search in depth for an id that is reached again from itself. The trail holds the ids on the way
to where the search is, nearest first; `pending` holds what is left to follow from each of them,
and from the outside last. -/
def searchCycle (g : Graph) (visited trail : List String) :
    (pending : List (List String)) → Option String
  | [] => none
  | [] :: pending => g.searchCycle visited (trail.drop 1) pending
  | (id :: ids) :: pending =>
      if id ∈ trail then some id
      else if id ∈ visited then g.searchCycle visited trail (ids :: pending)
      else g.searchCycle (id :: visited) (id :: trail) (g.directDeps id :: ids :: pending)
termination_by pending => (g.unseen visited, pendingWork pending)
decreasing_by
  · apply Prod.Lex.right
    simp [pendingWork]
  · apply Prod.Lex.right
    simp only [pendingWork, List.foldr_cons, List.length_cons]
    omega
  · next new =>
      by_cases node : id ∈ g.nodes
      · exact Prod.Lex.left _ _ (g.unseen_cons_lt node new)
      · rw [g.unseen_cons_of_not_mem node, g.directDeps_of_not_mem node]
        apply Prod.Lex.right
        simp only [pendingWork, List.foldr_cons, List.length_cons, List.length_nil]
        omega

/-- An id on a cycle, if there is one. -/
def findCycle (g : Graph) : Option String :=
  g.searchCycle [] [] [g.nodes]

end Graph

end SchemaModules
