import ContingentPlan.Graph.Basic

/-!
What an executor and a knowledge base need from a plan: the dispatch records in the order of their
ids, and the condition behind every condition edge in the order of the edge names.
-/

namespace ContingentPlan

structure ConditionEntry where
  edge : String
  condition : Condition
deriving DecidableEq, Repr

structure Export where
  dispatches : List Dispatch
  conditions : List ConditionEntry
deriving DecidableEq

def Export.ofGraph (graph : PlanGraph) : Export where
  dispatches := graph.nodes.map Node.dispatch
  conditions := graph.conditions.entries.map fun entry =>
    { edge := entry.1, condition := entry.2 }

end ContingentPlan
