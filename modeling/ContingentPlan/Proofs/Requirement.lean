import ContingentPlan.Proofs.Graph.Completion
import ContingentPlan.Proofs.Graph.Linkage

/-!
What the requirements of a node do to the node and its graph. They register condition edges into the
node, one after the other, and nothing else: the stored nodes, the action edges and the inputs that
the node has already stay as they are.
-/

namespace ContingentPlan

/-- The edge names and conditions that tuples and observations of a domain ask for. -/
inductive Demanded (domain : Domain) : String → Condition → Prop
  | tuple {parameters head arguments condition} :
      groundTuple domain parameters head arguments = .ok condition →
      Demanded domain condition.signature condition
  | observation {fact outcome condition} :
      observationCondition domain fact outcome = .ok condition →
      Demanded domain (Reading.outcomeEdge outcome fact) condition

inductive Requires (domain : Domain) (graph : PlanGraph) (node : Node) :
    PlanGraph → Node → Prop
  | refl : Requires domain graph node graph node
  | step {middle : PlanGraph} {draft : Node} {name : String} {condition : Condition} :
      Requires domain graph node middle draft → Demanded domain name condition →
      Requires domain graph node (middle.registerCondition name draft.id condition).2
        (draft.addInput (middle.registerCondition name draft.id condition).1)

namespace Requires

variable {domain : Domain} {graph middle after : PlanGraph} {node draft final : Node}

theorem trans (first : Requires domain graph node middle draft)
    (second : Requires domain middle draft after final) :
    Requires domain graph node after final := by
  induction second with
  | refl => exact first
  | step _ demanded ih => exact ih.step demanded

theorem node_kept (requires : Requires domain graph node after final) :
    final.id = node.id ∧ final.name = node.name ∧ final.output = node.output ∧
      final.dispatch = node.dispatch := by
  induction requires with
  | refl => exact ⟨rfl, rfl, rfl, rfl⟩
  | step _ _ ih => simpa using ih

theorem nodes_eq (requires : Requires domain graph node after final) :
    after.nodes = graph.nodes := by
  induction requires with
  | refl => rfl
  | step _ _ ih => rw [PlanGraph.nodes_registerCondition, ih]

theorem producers?_eq (requires : Requires domain graph node after final) :
    after.producers? = graph.producers? := by
  induction requires with
  | refl => rfl
  | step _ _ ih => rw [PlanGraph.producers?_registerCondition, ih]

theorem admits_eq (requires : Requires domain graph node after final) :
    after.admits .condition = graph.admits .condition := by
  funext name
  rw [PlanGraph.admits_condition, PlanGraph.admits_condition, requires.producers?_eq]

theorem inputEdges_eq (requires : Requires domain graph node after final) :
    ∃ added, final.inputEdges = node.inputEdges ++ added ∧
      ∀ name ∈ added, graph.producers? name = none := by
  induction requires with
  | refl => exact ⟨[], by simp, by simp⟩
  | @step middle draft name condition before _ ih =>
      obtain ⟨added, inputs, conditions⟩ := ih
      have fresh : graph.producers? (middle.registerCondition name draft.id condition).1 = none := by
        rw [← before.producers?_eq]
        exact middle.producers?_nameFor_condition name
      rw [Node.inputEdges_addInput]
      split
      · exact ⟨added, inputs, conditions⟩
      · refine ⟨added ++ [(middle.registerCondition name draft.id condition).1], by simp [inputs], ?_⟩
        intro other member
        rcases mem_append_singleton.mp member with old | same
        · exact conditions other old
        · rw [same]
          exact fresh

theorem linked {nodes : List Node} (requires : Requires domain graph node after final)
    (linked : Linked graph (nodes ++ [node])) (newest : ∀ older ∈ nodes, older.id < node.id) :
    Linked after (nodes ++ [final]) := by
  induction requires with
  | refl => exact linked
  | @step middle draft name condition before _ ih =>
      apply ih.feed
      · rw [before.node_kept.1]
        exact newest
      · exact fun other => middle.sinksAt_registerCondition name other draft.id condition

theorem forward (requires : Requires domain graph node after final) (forward : Forward graph) :
    Forward after := by
  induction requires with
  | refl => exact forward
  | step _ _ ih => exact ih.registerCondition _ _ _

theorem sinksAt_of_producers? (requires : Requires domain graph node after final) {name : String}
    {sources : List Nat} (action : graph.producers? name = some sources) :
    after.sinksAt name = graph.sinksAt name := by
  induction requires with
  | refl => rfl
  | @step middle draft requested condition before _ ih =>
      have different : name ≠ middle.nameFor requested .condition := by
        intro same
        have none := middle.producers?_nameFor_condition requested
        rw [← same, before.producers?_eq, action] at none
        cases none
      rw [PlanGraph.sinksAt_registerCondition, if_neg different, ih]

end Requires

theorem Resolution.requires_require {domain : Domain} (resolution : Resolution)
    {condition : Condition} (demanded : Demanded domain condition.signature condition) :
    Requires domain resolution.graph resolution.node
      (resolution.require condition).graph (resolution.require condition).node := by
  unfold Resolution.require
  split
  · exact .refl
  · exact Requires.refl.step demanded

theorem Resolution.dispatch_require (resolution : Resolution) (condition : Condition) :
    (resolution.require condition).node.dispatch = resolution.node.dispatch := by
  unfold require
  split
  · rfl
  · exact Node.dispatch_addInput _ _

theorem Resolution.requires_addTuples (domain : Domain) (resolution : Resolution)
    (tuples : List ConditionTuple) :
    Requires domain resolution.graph resolution.node
      (resolution.addTuples domain tuples).graph (resolution.addTuples domain tuples).node := by
  induction tuples generalizing resolution with
  | nil => exact .refl
  | cons tuple tuples ih =>
      cases tuple with
      | nil => exact ih resolution
      | cons head arguments =>
          simp only [Resolution.addTuples]
          split
          · exact .refl
          · rename_i condition grounded
            exact (resolution.requires_require (.tuple grounded)).trans (ih _)

theorem PlanGraph.requires_resolve (graph : PlanGraph) (domain : Domain) (node : Node) :
    Requires domain graph node (graph.resolve domain node).graph (graph.resolve domain node).node := by
  unfold PlanGraph.resolve
  split
  · exact .refl
  · exact Resolution.requires_addTuples domain { node, graph } _

end ContingentPlan
