import ContingentPlan.Proofs.Graph.Completion
import ContingentPlan.Proofs.Graph.Linkage

/-!
A node that is connected to several action edges, one after the other.
-/

namespace ContingentPlan

section Connecting

variable {names : List String} {graph : PlanGraph} {sink : Nat}

theorem producers?_foldl_connect :
    (names.foldl (·.connect · sink) graph).producers? = graph.producers? := by
  induction names generalizing graph with
  | nil => rfl
  | cons name names ih => rw [List.foldl_cons, ih, PlanGraph.producers?_connect]

theorem nodes_foldl_connect : (names.foldl (·.connect · sink) graph).nodes = graph.nodes := by
  induction names generalizing graph with
  | nil => rfl
  | cons name names ih => rw [List.foldl_cons, ih, PlanGraph.nodes_connect]

theorem sinksAt_foldl_connect_ne_nil
    (actions : ∀ name ∈ names, ∃ sources, graph.producers? name = some sources) {name : String}
    (fed : name ∈ names ∨ graph.sinksAt name ≠ []) :
    (names.foldl (·.connect · sink) graph).sinksAt name ≠ [] := by
  induction names generalizing graph with
  | nil => simpa using fed
  | cons first rest ih =>
      obtain ⟨sources, action⟩ := actions first (by simp)
      apply ih
      · intro other member
        rw [PlanGraph.producers?_connect]
        exact actions other (by simp [member])
      · rw [PlanGraph.sinksAt_connect action]
        split
        · exact Or.inr (Edge.extendSinks_ne_nil _ _)
        · rename_i different
          simpa [different] using fed

theorem mem_sinksAt_foldl_connect
    (actions : ∀ name ∈ names, ∃ sources, graph.producers? name = some sources) {name : String}
    {id : Nat} :
    id ∈ (names.foldl (·.connect · sink) graph).sinksAt name ↔
      id ∈ graph.sinksAt name ∨ id = sink ∧ name ∈ names := by
  induction names generalizing graph with
  | nil => simp
  | cons first rest ih =>
      obtain ⟨sources, action⟩ := actions first (by simp)
      rw [List.foldl_cons, ih]
      · rw [PlanGraph.sinksAt_connect action]
        split
        · rename_i same
          subst same
          rw [Edge.mem_extendSinks]
          simp only [List.mem_cons, true_or, and_true]
          tauto
        · rename_i different
          simp [different]
      · intro other member
        rw [PlanGraph.producers?_connect]
        exact actions other (by simp [member])

theorem linked_foldl_connect {nodes : List Node} {node : Node}
    (actions : ∀ name ∈ names, ∃ sources, graph.producers? name = some sources)
    (linked : Linked graph (nodes ++ [node])) (newest : ∀ older ∈ nodes, older.id < node.id) :
    Linked (names.foldl (·.connect · node.id) graph) (nodes ++ [names.foldl Node.addInput node]) := by
  induction names generalizing graph node with
  | nil => exact linked
  | cons first rest ih =>
      obtain ⟨sources, action⟩ := actions first (by simp)
      rw [List.foldl_cons, List.foldl_cons, ← Node.id_addInput node first]
      apply ih
      · intro other member
        rw [PlanGraph.producers?_connect]
        exact actions other (by simp [member])
      · rw [Node.id_addInput]
        exact linked.feed newest (PlanGraph.sinksAt_connect action node.id)
      · rw [Node.id_addInput]
        exact newest

theorem forward_foldl_connect (forward : Forward graph)
    (actions : ∀ name ∈ names, ∃ sources, graph.producers? name = some sources ∧
      ∀ source ∈ sources, source < sink) :
    Forward (names.foldl (·.connect · sink) graph) := by
  induction names generalizing graph with
  | nil => exact forward
  | cons first rest ih =>
      obtain ⟨sources, action, later⟩ := actions first (by simp)
      apply ih (forward.connect action later)
      intro other member
      rw [PlanGraph.producers?_connect]
      exact actions other (by simp [member])

end Connecting

end ContingentPlan
