import ContingentPlan.Proofs.Condition
import ContingentPlan.Proofs.Graph.Records

/-!
The preconditions of a node as demands on the graph. A resolution that comes to its end has grounded
every tuple, and the node waits on the edge that the demand of each tuple is answered with, also when
the tuple repeats a requirement or when the edge was there before.
-/

namespace ContingentPlan

theorem Requires.keeps {domain : Domain} {graph after : PlanGraph} {node final : Node}
    (requires : Requires domain graph node after final) : Keeps graph after := by
  induction requires with
  | refl => exact .refl
  | step _ _ ih => exact ih.trans (.registerCondition _ _ _)

def tupleDemand? (domain : Domain) (parameters : List Binding) : ConditionTuple → Option Demand
  | [] => none
  | head :: arguments =>
      match groundTuple domain parameters head arguments with
      | .ok condition => some { name := condition.signature, condition }
      | .error _ => none

def Grounds (domain : Domain) (parameters : List Binding) : ConditionTuple → Prop
  | [] => True
  | head :: arguments => ∃ condition, groundTuple domain parameters head arguments = .ok condition

/-- The node waits on the edges of its `own` demands, and the graph records these and the `earlier`
ones. -/
structure Informs (earlier own : List Demand) (graph : PlanGraph) (node : Node) : Prop where
  records : graph.Records (earlier ++ own)
  waits : ∀ demand ∈ own, graph.holder demand ∈ node.inputEdges

theorem Informs.register {earlier own : List Demand} {graph : PlanGraph} {node : Node}
    (informs : Informs earlier own graph node) (demand : Demand) :
    Informs earlier (own ++ [demand])
      (graph.registerCondition demand.name node.id demand.condition).2
      (node.addInput (graph.registerCondition demand.name node.id demand.condition).1) where
  records := by
    rw [← List.append_assoc]
    exact informs.records.register demand node.id
  waits := by
    intro other among
    rw [Node.mem_inputEdges_addInput]
    rcases mem_append_singleton.mp among with older | newest
    · have settled := informs.records.settled other (List.mem_append_right _ older)
      rw [(Keeps.registerCondition demand.name node.id demand.condition).holder_eq settled]
      exact Or.inr (informs.waits other older)
    · left
      rw [newest]
      exact (Keeps.answer_registerCondition graph demand.name node.id demand.condition).1

structure Resolving (earlier own : List Demand) (resolution : Resolution) : Prop
    extends Informs earlier own resolution.graph resolution.node where
  stated : ∀ requirement ∈ resolution.requirements,
    { name := requirement.condition.signature, condition := requirement.condition } ∈ own

namespace Resolving

variable {earlier own : List Demand} {resolution : Resolution}

theorem start {graph : PlanGraph} (records : graph.Records earlier) (node : Node) :
    Resolving earlier [] { node, graph } where
  records := by simpa using records
  waits := by simp
  stated := by simp

theorem repeated (resolving : Resolving earlier own resolution) {condition : Condition}
    {requirement : Requirement} (member : requirement ∈ resolution.requirements)
    (same : requirement.condition.SameRequirement condition) :
    Resolving earlier (own ++ [{ name := condition.signature, condition }]) resolution where
  records := by
    rw [← List.append_assoc]
    exact resolving.records.again
      (List.mem_append_right _ (resolving.stated requirement member)) same.signature_eq
  waits := by
    intro demand among
    rcases mem_append_singleton.mp among with older | newest
    · exact resolving.waits demand older
    · have waits := resolving.waits _ (resolving.stated requirement member)
      rw [newest, PlanGraph.holder, ← same.signature_eq]
      exact waits
  stated := fun other among => List.mem_append_left _ (resolving.stated other among)

theorem require (resolving : Resolving earlier own resolution) (condition : Condition) :
    Resolving earlier (own ++ [{ name := condition.signature, condition }])
      (resolution.require condition) := by
  unfold Resolution.require
  split
  · rename_i known
    obtain ⟨requirement, member, same⟩ := List.any_eq_true.mp known
    exact resolving.repeated member (of_decide_eq_true same)
  · refine ⟨resolving.register { name := condition.signature, condition }, ?_⟩
    intro requirement among
    rcases mem_append_singleton.mp among with older | newest
    · exact List.mem_append_left _ (resolving.stated requirement older)
    · rw [newest]
      simp

theorem addTuples (resolving : Resolving earlier own resolution) {domain : Domain}
    {tuples : List ConditionTuple} (complete : (resolution.addTuples domain tuples).fault = none) :
    (∀ tuple ∈ tuples, Grounds domain resolution.node.dispatch.parameters tuple) ∧
      Resolving earlier
        (own ++ tuples.filterMap (tupleDemand? domain resolution.node.dispatch.parameters))
        (resolution.addTuples domain tuples) := by
  induction tuples generalizing resolution own with
  | nil => simpa [Resolution.addTuples] using resolving
  | cons tuple tuples ih =>
      cases tuple with
      | nil =>
          obtain ⟨grounds, rest⟩ := ih resolving complete
          exact ⟨List.forall_mem_cons.mpr ⟨trivial, grounds⟩, rest⟩
      | cons head arguments =>
          cases grounded : groundTuple domain resolution.node.dispatch.parameters head arguments with
          | error fault => simp [Resolution.addTuples, grounded] at complete
          | ok condition =>
              simp only [Resolution.addTuples, grounded] at complete ⊢
              obtain ⟨grounds, rest⟩ := ih (resolving.require condition) complete
              rw [resolution.dispatch_require] at grounds rest
              refine ⟨List.forall_mem_cons.mpr ⟨⟨condition, grounded⟩, grounds⟩, ?_⟩
              simpa [tupleDemand?, grounded] using rest

end Resolving

def Node.tupleDemands (domain : Domain) (node : Node) : List Demand :=
  match domain.preconditionTuples (Text.lowercase node.dispatch.name) with
  | .ok tuples => tuples.filterMap (tupleDemand? domain node.dispatch.parameters)
  | .error _ => []

def Node.Grounded (domain : Domain) (node : Node) : Prop :=
  ∃ tuples, domain.preconditionTuples (Text.lowercase node.dispatch.name) = .ok tuples ∧
    ∀ tuple ∈ tuples, Grounds domain node.dispatch.parameters tuple

theorem PlanGraph.Records.resolve {graph : PlanGraph} {earlier : List Demand}
    (records : graph.Records earlier) {domain : Domain} {node : Node}
    (complete : (graph.resolve domain node).fault = none) :
    node.Grounded domain ∧
      Resolving earlier (node.tupleDemands domain) (graph.resolve domain node) := by
  cases found : domain.preconditionTuples (Text.lowercase node.dispatch.name) with
  | error fault => simp [PlanGraph.resolve, found] at complete
  | ok tuples =>
      simp only [PlanGraph.resolve, found] at complete ⊢
      obtain ⟨grounds, resolving⟩ := (Resolving.start records node).addTuples complete
      rw [List.nil_append] at resolving
      refine ⟨⟨tuples, found, grounds⟩, ?_⟩
      simpa [Node.tupleDemands, found] using resolving

end ContingentPlan
