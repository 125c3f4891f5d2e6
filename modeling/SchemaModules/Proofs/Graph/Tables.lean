import SchemaModules.Proofs.Graph.Additions
import SchemaModules.Proofs.SortedMap

/-! # Graphs in two tables

The nodes of a graph in the order in which they were added, and the dependencies of each node by its
id, can be kept in two tables that are changed together. The tables stay in step with each other and
answer as the graph does (`Tables.represents_ofAdditions`). Both list what additions mention once,
where it was mentioned first (`lists_of_additions`).
-/

namespace SchemaModules.Graph

variable {g : Graph} {id : String} {mentioned listed : List String}

/-- A list of what another one mentions, each once and in the order of the first mentions. -/
structure ListsFirsts (mentioned listed : List String) : Prop where
  mem_iff : ∀ id, id ∈ listed ↔ id ∈ mentioned
  nodup : listed.Nodup
  ordered : listed.Pairwise fun a b => mentioned.idxOf a < mentioned.idxOf b

/-- Removing repetitions leaves everything where it is mentioned first. -/
theorem listsFirsts_eraseDups (mentioned : List String) :
    ListsFirsts mentioned mentioned.eraseDups := by
  refine ⟨fun id => List.mem_eraseDups, nodup_eraseDups mentioned, ?_⟩
  induction mentioned using List.reverseRecOn with
  | nil => exact .nil
  | append_singleton mentioned id ih =>
      have earlier : mentioned.eraseDups.Pairwise fun a b =>
          (mentioned ++ [id]).idxOf a < (mentioned ++ [id]).idxOf b := by
        apply ih.imp_of_mem
        intro a b first second before
        rwa [List.idxOf_append_of_mem (List.mem_eraseDups.mp first),
          List.idxOf_append_of_mem (List.mem_eraseDups.mp second)]
      rw [eraseDups_concat]
      split
      · exact earlier
      · next new =>
          refine List.pairwise_append.mpr ⟨earlier, List.pairwise_singleton _ _, ?_⟩
          intro a first b last
          obtain rfl := List.mem_singleton.mp last
          have member := List.mem_eraseDups.mp first
          rw [List.idxOf_append_of_mem member, List.idxOf_append_of_notMem new]
          exact Nat.lt_add_right _ (List.idxOf_lt_length_iff.mpr member)

/-- If the nodes are what was mentioned, they still are after one more node was mentioned. -/
theorem nodes_addNode_of_mentioned (nodes : g.nodes = mentioned.eraseDups) (id : String) :
    (g.addNode id).nodes = (mentioned ++ [id]).eraseDups := by
  rw [nodes_addNode, eraseDups_concat, nodes]
  simp only [contains_iff, nodes, List.mem_eraseDups]

/-- The nodes are the ids that additions mention, each where it was mentioned first. -/
theorem nodes_ofAdditions (additions : List Addition) :
    (ofAdditions additions).nodes = (additions.flatMap Addition.mentions).eraseDups := by
  induction additions using List.reverseRecOn with
  | nil => rfl
  | append_singleton additions a ih =>
      rw [ofAdditions_concat, List.flatMap_append, List.flatMap_singleton]
      cases a with
      | node id => exact nodes_addNode_of_mentioned ih id
      | edge source target =>
          rw [add, nodes_addEdge]
          have first := nodes_addNode_of_mentioned ih source
          have both := nodes_addNode_of_mentioned first target
          rwa [List.append_assoc] at both

/-- A graph in two tables: its nodes in the order they were added, and their dependencies. -/
structure Tables where
  nodes : List String
  deps : SortedMap String (List String)

namespace Tables

/-- The tables of the graph without nodes. -/
def empty : Tables := ⟨[], SortedMap.empty⟩

/-- Whether an id has dependencies, be they none. -/
def contains (t : Tables) (id : String) : Bool := t.deps.contains id

/-- The direct dependencies of a node; an id that is no node has none. -/
def directDeps (t : Tables) (id : String) : List String := (t.deps.find? id).getD []

/-- The tables with these dependencies of an id, in place of those it has. -/
def setDeps (t : Tables) (id : String) (deps : List String) : Tables :=
  ⟨t.nodes, t.deps.insert id deps⟩

/-- The tables with a node, put last if it is new. -/
def addNode (t : Tables) (id : String) : Tables :=
  if t.contains id then t else ⟨t.nodes ++ [id], (t.setDeps id []).deps⟩

/-- The tables with a dependency, put last among those of its node if it is new. -/
def addEdge (t : Tables) (source target : String) : Tables :=
  let t := (t.addNode source).addNode target
  match t.deps.find? source with
  | some deps => if target ∈ deps then t else t.setDeps source (deps ++ [target])
  | none => t

/-- The tables with an addition. -/
def add (t : Tables) : Addition → Tables
  | .node id => t.addNode id
  | .edge source target => t.addEdge source target

/-- The tables of additions one after another. -/
def ofAdditions (additions : List Addition) : Tables := additions.foldl add empty

variable {t : Tables}

theorem contains_setDeps (t : Tables) (id : String) (deps : List String) (other : String) :
    (t.setDeps id deps).contains other = (decide (other = id) || t.contains other) := by
  simp only [contains, SortedMap.contains, setDeps, SortedMap.find?_insert]
  by_cases same : other = id <;> simp [same]

theorem directDeps_setDeps (t : Tables) (id : String) (deps : List String) (other : String) :
    (t.setDeps id deps).directDeps other = if other = id then deps else t.directDeps other := by
  simp only [directDeps, setDeps, SortedMap.find?_insert]
  split <;> rfl

theorem directDeps_of_not_contains (missing : ¬ t.contains id = true) : t.directDeps id = [] := by
  have none : t.deps.find? id = none := by
    simpa [contains, SortedMap.contains] using missing
  rw [directDeps, none, Option.getD_none]

theorem contains_addNode (t : Tables) (id other : String) :
    (t.addNode id).contains other = (decide (other = id) || t.contains other) := by
  unfold addNode
  split
  · next known =>
      by_cases same : other = id
      · simp [same, known]
      · simp [same]
  · exact t.contains_setDeps id [] other

theorem directDeps_addNode (t : Tables) (id other : String) :
    (t.addNode id).directDeps other = t.directDeps other := by
  unfold addNode
  split
  · rfl
  · next missing =>
      refine (t.directDeps_setDeps id [] other).trans ?_
      split
      · next same => rw [same, directDeps_of_not_contains missing]
      · rfl

/-- The source of an edge is a node before the edge is added. -/
theorem contains_source (t : Tables) (source target : String) :
    ((t.addNode source).addNode target).contains source = true := by
  rw [contains_addNode, contains_addNode, decide_eq_true rfl, Bool.true_or, Bool.or_true]

/-- An edge is added between nodes, so the dependencies of its source are there. -/
theorem addEdge_eq (t : Tables) (source target : String) :
    t.addEdge source target =
      if target ∈ t.directDeps source then (t.addNode source).addNode target
      else ((t.addNode source).addNode target).setDeps source
        (t.directDeps source ++ [target]) := by
  have deps : ((t.addNode source).addNode target).directDeps source = t.directDeps source := by
    rw [directDeps_addNode, directDeps_addNode]
  obtain ⟨listed, found⟩ := Option.isSome_iff_exists.mp (t.contains_source source target)
  have same : listed = t.directDeps source := by
    rw [← deps, directDeps, found, Option.getD_some]
  simp only [addEdge, found, same]

/-- Two tables that are in step represent a graph: the one has its nodes, and the other has the
dependencies of these and of no other ids. -/
structure Represents (t : Tables) (g : Graph) : Prop where
  nodes_eq : t.nodes = g.nodes
  contains_eq : ∀ id, t.contains id = g.contains id
  directDeps_eq : ∀ id, t.directDeps id = g.directDeps id

theorem represents_empty : empty.Represents Graph.empty :=
  ⟨rfl, fun _ => rfl, fun _ => rfl⟩

theorem Represents.addNode (represents : t.Represents g) (id : String) :
    (t.addNode id).Represents (g.addNode id) where
  nodes_eq := by
    rw [Graph.nodes_addNode, Tables.addNode, represents.contains_eq, ← represents.nodes_eq]
    split <;> rfl
  contains_eq other := by
    have added : other ∈ (g.addNode id).nodes ↔ other ∈ g.nodes ∨ other ∈ [id] :=
      mem_nodes_add (a := .node id)
    rw [contains_addNode, represents.contains_eq, Bool.eq_iff_iff, Bool.or_eq_true,
      decide_eq_true_iff, contains_iff, contains_iff, added, List.mem_singleton, or_comm]
  directDeps_eq other := by
    rw [directDeps_addNode, Graph.directDeps_addNode, represents.directDeps_eq]

theorem Represents.addEdge (represents : t.Represents g) (source target : String) :
    (t.addEdge source target).Represents (g.addEdge source target) := by
  have added := (represents.addNode source).addNode target
  -- The edge makes no more nodes than its two ends.
  have ends : ∀ id, (g.addEdge source target).contains id =
      ((t.addNode source).addNode target).contains id := by
    intro id
    rw [added.contains_eq, Graph.contains, Graph.contains, nodes_addEdge]
  rw [addEdge_eq]
  split
  · next known =>
      refine ⟨by rw [added.nodes_eq, nodes_addEdge], fun id => (ends id).symm, fun id => ?_⟩
      have old : ¬ (id = source ∧ target ∉ g.directDeps id) := by
        rintro ⟨rfl, new⟩
        exact new (represents.directDeps_eq id ▸ known)
      rw [directDeps_addEdge, if_neg old, directDeps_addNode, directDeps_addNode,
        represents.directDeps_eq]
  · next new =>
      refine ⟨added.nodes_eq.trans (nodes_addEdge ..).symm, fun id => ?_, fun id => ?_⟩
      · rw [ends, contains_setDeps]
        by_cases same : id = source
        · rw [same, contains_source, Bool.or_true]
        · rw [decide_eq_false same, Bool.false_or]
      · rw [directDeps_setDeps, directDeps_addEdge, directDeps_addNode, directDeps_addNode,
          represents.directDeps_eq, represents.directDeps_eq]
        rw [represents.directDeps_eq] at new
        by_cases same : id = source
        · subst same
          rw [if_pos rfl, if_pos ⟨rfl, new⟩]
        · rw [if_neg same, if_neg fun edge => same edge.1]

theorem Represents.add (represents : t.Represents g) (a : Addition) :
    (t.add a).Represents (g.add a) := by
  cases a with
  | node id => exact represents.addNode id
  | edge source target => exact represents.addEdge source target

theorem represents_ofAdditions (additions : List Addition) :
    (ofAdditions additions).Represents (Graph.ofAdditions additions) := by
  induction additions using List.reverseRecOn with
  | nil => exact represents_empty
  | append_singleton additions a ih =>
      rw [ofAdditions_concat, ofAdditions, List.foldl_append]
      exact ih.add a

end Tables

/-- However nodes and edges are added to a graph, its nodes are the ids that were mentioned, and the
dependencies of an id are the targets of the edges from it, each once and where it came first; all
of them are nodes. Two tables that are changed together answer the same. -/
theorem lists_of_additions (additions : List Addition) :
    let g := ofAdditions additions
    ListsFirsts (additions.flatMap Addition.mentions) g.nodes ∧
      (∀ id, g.contains id = true ↔ id ∈ g.nodes) ∧
      (∀ id, ListsFirsts (targets additions id) (g.directDeps id) ∧
        (∀ dep, dep ∈ g.directDeps id ↔ Added additions id dep) ∧
        g.directDeps id ⊆ g.nodes) ∧
      (Tables.ofAdditions additions).Represents g := by
  intro g
  refine ⟨?_, fun id => contains_iff, fun id => ⟨?_, fun dep => ?_, fun dep direct => ?_⟩,
    Tables.represents_ofAdditions additions⟩
  · rw [nodes_ofAdditions]
    exact listsFirsts_eraseDups _
  · rw [directDeps_ofAdditions]
    exact listsFirsts_eraseDups _
  · exact iff_of_eq (congrFun (congrFun edge_ofAdditions id) dep)
  · have added : Added additions id dep := by
      rw [← edge_ofAdditions]
      exact direct
    exact added.mem_nodes.2

example : (ofAdditions [.node "z", .edge "m" "a", .edge "m" "m", .edge "m" "a"]).adjacency =
    [("z", []), ("m", ["a", "m"]), ("a", [])] := by
  decide

end SchemaModules.Graph
