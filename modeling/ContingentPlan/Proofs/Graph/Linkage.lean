import ContingentPlan.Proofs.Graph.Edges

/-!
Nodes and edges that refer to each other: a node lists an edge exactly when the edge lists the node.
The last node of the list may be unfinished; the operations that feed it keep the agreement as long
as it is the newest.
-/

namespace ContingentPlan

namespace Node

@[simp] theorem id_addInput (node : Node) (edge : String) : (node.addInput edge).id = node.id := by
  unfold addInput
  split <;> rfl

@[simp] theorem name_addInput (node : Node) (edge : String) :
    (node.addInput edge).name = node.name := by
  unfold addInput
  split <;> rfl

@[simp] theorem output_addInput (node : Node) (edge : String) :
    (node.addInput edge).output = node.output := by
  unfold addInput
  split <;> rfl

@[simp] theorem dispatch_addInput (node : Node) (edge : String) :
    (node.addInput edge).dispatch = node.dispatch := by
  unfold addInput
  split <;> rfl

theorem inputEdges_addInput (node : Node) (edge : String) :
    (node.addInput edge).inputEdges =
      if edge ∈ node.inputEdges then node.inputEdges else node.inputEdges ++ [edge] := by
  by_cases listed : edge ∈ node.inputEdges
  · simp [addInput, hasInput, listed]
  · have unlisted : node.hasInput edge = false := by simpa [hasInput] using listed
    rw [if_neg listed, addInput, unlisted]
    simp [inputEdges]

theorem mem_inputEdges_addInput {node : Node} {edge other : String} :
    other ∈ (node.addInput edge).inputEdges ↔ other = edge ∨ other ∈ node.inputEdges := by
  rw [inputEdges_addInput]
  split
  · rename_i listed
    constructor
    · exact Or.inr
    · rintro (rfl | member)
      · exact listed
      · exact member
  · simp [or_comm]

theorem nodup_inputEdges_addInput {node : Node} (unique : node.inputEdges.Nodup) (edge : String) :
    (node.addInput edge).inputEdges.Nodup := by
  rw [inputEdges_addInput]
  split
  · exact unique
  · rename_i unlisted
    rw [List.nodup_append]
    refine ⟨unique, by simp, ?_⟩
    intro listed member added single same
    rw [List.mem_singleton] at single
    exact unlisted (single ▸ same ▸ member)

end Node

theorem Edge.ascending_extendSinks {sinks : List Nat} {node : Nat}
    (ascending : sinks.Pairwise (· < ·)) (newest : ∀ sink ∈ sinks, sink ≤ node) :
    (extendSinks sinks node).Pairwise (· < ·) := by
  unfold extendSinks
  split
  · exact ascending
  · rename_i unlisted
    rw [List.pairwise_append]
    refine ⟨ascending, by simp, ?_⟩
    intro sink member added single
    rw [List.mem_singleton] at single
    have bound := newest sink member
    have different : sink ≠ node := fun same => unlisted (same ▸ member)
    omega

theorem mem_append_singleton {α : Type} {item last : α} {items : List α} :
    item ∈ items ++ [last] ↔ item ∈ items ∨ item = last := by
  rw [List.mem_append, List.mem_singleton]

structure Linked (graph : PlanGraph) (nodes : List Node) : Prop where
  input_iff : ∀ node ∈ nodes, ∀ name, name ∈ node.inputEdges ↔ node.id ∈ graph.sinksAt name
  stored : ∀ name, ∀ id ∈ graph.sinksAt name, ∃ node ∈ nodes, node.id = id
  input_nodup : ∀ node ∈ nodes, node.inputEdges.Nodup
  ascending : ∀ name, (graph.sinksAt name).Pairwise (· < ·)

namespace Linked

variable {graph after : PlanGraph} {nodes : List Node} {node : Node}

theorem empty : Linked ∅ [] where
  input_iff := by simp
  stored := by
    intro name id member
    cases member
  input_nodup := by simp
  ascending := fun _ => List.Pairwise.nil

theorem begin (linked : Linked graph nodes) (newest : ∀ older ∈ nodes, older.id < node.id)
    (blank : node.input = []) : Linked graph (nodes ++ [node]) where
  input_iff := by
    intro other member name
    rcases mem_append_singleton.mp member with older | same
    · exact linked.input_iff other older name
    · subst other
      have unfed : node.id ∉ graph.sinksAt name := by
        intro fed
        obtain ⟨older, present, same⟩ := linked.stored name node.id fed
        have below := newest older present
        omega
      simp [Node.inputEdges, blank, unfed]
  stored := by
    intro name id fed
    obtain ⟨older, present, same⟩ := linked.stored name id fed
    exact ⟨older, List.mem_append_left _ present, same⟩
  input_nodup := by
    intro other member
    rcases mem_append_singleton.mp member with older | same
    · exact linked.input_nodup other older
    · simp [same, Node.inputEdges, blank]
  ascending := linked.ascending

theorem feed (linked : Linked graph (nodes ++ [node]))
    (newest : ∀ older ∈ nodes, older.id < node.id) {edge : String}
    (fed : ∀ name, after.sinksAt name =
      if name = edge then Edge.extendSinks (graph.sinksAt edge) node.id
      else graph.sinksAt name) :
    Linked after (nodes ++ [node.addInput edge]) where
  input_iff := by
    intro other member name
    rcases mem_append_singleton.mp member with older | same
    · have before := linked.input_iff other (List.mem_append_left _ older) name
      have below := newest other older
      rw [before, fed]
      split
      · rename_i same
        subst name
        have different : other.id ≠ node.id := by omega
        simp [Edge.mem_extendSinks, different]
      · rfl
    · subst other
      have before := linked.input_iff node (by simp) name
      rw [Node.mem_inputEdges_addInput, before, fed, Node.id_addInput]
      split
      · rename_i same
        subst name
        simp [Edge.mem_extendSinks]
      · rename_i different
        simp [different]
  stored := by
    intro name id member
    have held : id = node.id ∨ id ∈ graph.sinksAt name := by
      rw [fed] at member
      split at member
      · rename_i same
        subst name
        exact Edge.mem_extendSinks.mp member
      · exact Or.inr member
    rcases held with own | present
    · exact ⟨node.addInput edge, by simp, by simp [own]⟩
    · obtain ⟨other, among, same⟩ := linked.stored name id present
      rcases mem_append_singleton.mp among with older | last
      · exact ⟨other, List.mem_append_left _ older, same⟩
      · exact ⟨node.addInput edge, by simp, by simp [← same, last]⟩
  input_nodup := by
    intro other member
    rcases mem_append_singleton.mp member with older | same
    · exact linked.input_nodup other (List.mem_append_left _ older)
    · subst other
      exact Node.nodup_inputEdges_addInput (linked.input_nodup node (by simp)) edge
  ascending := by
    intro name
    rw [fed]
    split
    · apply Edge.ascending_extendSinks (linked.ascending edge)
      intro sink member
      obtain ⟨other, among, same⟩ := linked.stored edge sink member
      rcases mem_append_singleton.mp among with older | last
      · have below := newest other older
        omega
      · subst last
        omega
    · exact linked.ascending name

theorem congr (linked : Linked graph (nodes ++ [node])) {other : Node}
    (sinks : after.sinksAt = graph.sinksAt) (id : other.id = node.id)
    (input : other.input = node.input) : Linked after (nodes ++ [other]) where
  input_iff := by
    intro listed member name
    rw [sinks]
    rcases mem_append_singleton.mp member with older | same
    · exact linked.input_iff listed (List.mem_append_left _ older) name
    · rw [same, Node.inputEdges, input, id]
      exact linked.input_iff node (by simp) name
  stored := by
    intro name sink member
    rw [sinks] at member
    obtain ⟨listed, among, same⟩ := linked.stored name sink member
    rcases mem_append_singleton.mp among with older | last
    · exact ⟨listed, List.mem_append_left _ older, same⟩
    · exact ⟨other, by simp, by rw [id, ← last, same]⟩
  input_nodup := by
    intro listed member
    rcases mem_append_singleton.mp member with older | same
    · exact linked.input_nodup listed (List.mem_append_left _ older)
    · rw [same, Node.inputEdges, input]
      exact linked.input_nodup node (by simp)
  ascending := by
    intro name
    rw [sinks]
    exact linked.ascending name

end Linked

end ContingentPlan
