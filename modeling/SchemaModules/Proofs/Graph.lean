import SchemaModules.Graph

/-! # Nodes and edges of dependency graphs

Adding nodes and edges to a graph does what it says and no more. A graph whose edges lead to nodes
is closed, and a search in it meets only nodes.
-/

namespace SchemaModules.Graph

variable {g : Graph}

theorem contains_iff {id : String} : g.contains id = true ↔ id ∈ g.nodes := by
  simp [contains]

theorem nodes_addNode (g : Graph) (id : String) :
    (g.addNode id).nodes = if g.contains id then g.nodes else g.nodes ++ [id] := by
  unfold addNode
  split <;> simp [nodes]

theorem addNode_of_contains {id : String} (node : g.contains id = true) : g.addNode id = g :=
  if_pos node

theorem nodes_addEdge (g : Graph) (source target : String) :
    (g.addEdge source target).nodes = ((g.addNode source).addNode target).nodes := by
  simp only [addEdge, nodes, List.map_map]
  refine List.map_congr_left fun node _ => ?_
  simp only [Function.comp_apply]
  split <;> rfl

@[simp]
theorem directDeps_addNode (g : Graph) (id other : String) :
    (g.addNode id).directDeps other = g.directDeps other := by
  unfold addNode
  split
  · rfl
  · simp only [directDeps, List.find?_append]
    cases g.adjacency.find? fun node => node.1 = other with
    | some node => rfl
    | none => by_cases same : id = other <;> simp [same]

/-- An edge is added to the dependencies of its source, once. -/
theorem directDeps_addEdge (g : Graph) (source target id : String) :
    (g.addEdge source target).directDeps id =
      if id = source ∧ target ∉ g.directDeps id then g.directDeps id ++ [target]
      else g.directDeps id := by
  have before : g.directDeps id = ((g.addNode source).addNode target).directDeps id := by simp
  have node : source ∈ ((g.addNode source).addNode target).nodes := by
    rw [nodes_addNode, nodes_addNode]
    split <;> split <;> simp_all [contains_iff]
  rw [before]
  unfold addEdge
  generalize (g.addNode source).addNode target = added at node ⊢
  simp only [directDeps, List.find?_map]
  have keeps : ((fun node : String × List String => decide (node.1 = id)) ∘ fun node =>
      if node.1 = source ∧ target ∉ node.2 then (node.1, node.2 ++ [target]) else node) =
      fun node => decide (node.1 = id) := by
    funext node
    simp only [Function.comp_apply]
    split <;> rfl
  rw [keeps]
  rcases Option.eq_none_or_eq_some (added.adjacency.find? fun node => node.1 = id) with
    found | ⟨entry, found⟩
  · have other : id ≠ source := by
      rintro rfl
      obtain ⟨entry, member, same⟩ := List.mem_map.mp node
      exact absurd (decide_eq_true same) (List.find?_eq_none.mp found entry member)
    simp [found, other]
  · have same : entry.1 = id := by simpa using List.find?_some found
    simp only [found, Option.map_some, Option.getD_some, same]
    split <;> rfl

/-- The dependencies of an id are those of some node. -/
theorem exists_node_of_mem_directDeps {id dep : String} (member : dep ∈ g.directDeps id) :
    ∃ node ∈ g.adjacency, dep ∈ node.2 := by
  unfold directDeps at member
  cases found : g.adjacency.find? fun node => node.1 = id with
  | none => simp [found] at member
  | some node =>
      rw [found] at member
      exact ⟨node, List.mem_of_find?_eq_some found, member⟩

/-- All edges lead to nodes. -/
def Closed (g : Graph) : Prop := ∀ node ∈ g.adjacency, ∀ dep ∈ node.2, dep ∈ g.nodes

theorem Closed.addNode (closed : g.Closed) (id : String) : (g.addNode id).Closed := by
  intro node member dep edge
  rw [nodes_addNode]
  unfold Graph.addNode at member
  by_cases known : g.contains id = true
  · rw [if_pos known] at member ⊢
    exact closed node member dep edge
  · rw [if_neg known] at member ⊢
    rcases List.mem_append.mp member with earlier | added
    · exact List.mem_append_left _ (closed node earlier dep edge)
    · rw [List.mem_singleton.mp added] at edge
      exact absurd edge List.not_mem_nil

/-- An edge between nodes keeps a graph closed and its nodes as they are. -/
theorem Closed.addEdge (closed : g.Closed) {source target : String}
    (here : g.contains source = true) (there : g.contains target = true) :
    (g.addEdge source target).Closed ∧ (g.addEdge source target).nodes = g.nodes := by
  have nodes : (g.addEdge source target).nodes = g.nodes := by
    rw [nodes_addEdge, addNode_of_contains here, addNode_of_contains there]
  refine ⟨?_, nodes⟩
  intro node member dep edge
  rw [nodes]
  simp only [Graph.addEdge, addNode_of_contains here, addNode_of_contains there] at member
  obtain ⟨old, oldMember, rfl⟩ := List.mem_map.mp member
  split at edge
  · rcases List.mem_append.mp edge with earlier | added
    · exact closed old oldMember dep earlier
    · rw [List.mem_singleton.mp added]
      exact contains_iff.mp there
  · exact closed old oldMember dep edge

/-- A search meets what it starts from and what edges lead to. -/
theorem mem_reach {seen queue : List String} {id : String} (member : id ∈ g.reach seen queue) :
    id ∈ queue ∨ ∃ node ∈ g.adjacency, id ∈ node.2 := by
  fun_induction reach g seen queue with
  | case1 => exact absurd member List.not_mem_nil
  | case2 seen first queue _ ih => exact (ih member).imp_left (List.mem_cons_of_mem _)
  | case3 seen first queue _ ih =>
      rcases List.mem_cons.mp member with rfl | later
      · exact .inl List.mem_cons_self
      · rcases ih later with waiting | edge
        · rcases List.mem_append.mp waiting with earlier | followed
          · exact .inl (List.mem_cons_of_mem _ earlier)
          · exact .inr (exists_node_of_mem_directDeps followed)
        · exact .inr edge

theorem Closed.mem_nodes_of_mem_transitiveDeps (closed : g.Closed) {id dep : String}
    (member : dep ∈ g.transitiveDeps id) : dep ∈ g.nodes := by
  rcases mem_reach member with direct | ⟨node, nodeMember, edge⟩
  · obtain ⟨node, nodeMember, edge⟩ := exists_node_of_mem_directDeps direct
    exact closed node nodeMember dep edge
  · exact closed node nodeMember dep edge

end SchemaModules.Graph
