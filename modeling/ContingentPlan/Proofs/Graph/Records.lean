import ContingentPlan.Proofs.Graph.Linkage
import ContingentPlan.Proofs.Graph.Registry

/-!
The conditions that a graph records. Each condition edge has one record, that of the first demand which
was answered with the edge; later demands for it add nothing.
-/

namespace ContingentPlan

structure Demand where
  name : String
  condition : Condition

namespace PlanGraph

def holder (graph : PlanGraph) (demand : Demand) : String := graph.nameFor demand.name .condition

structure Records (graph : PlanGraph) (demands : List Demand) : Prop where
  settled : ∀ demand ∈ demands, graph.Settled demand.name .condition
  first : ∀ name, graph.condition? name =
    (demands.find? fun demand => graph.holder demand = name).map Demand.condition

end PlanGraph

theorem Keeps.holder_eq {graph after : PlanGraph} (keeps : Keeps graph after) {demand : Demand}
    (settled : graph.Settled demand.name .condition) : after.holder demand = graph.holder demand :=
  (keeps.settled settled).1

theorem find?_holder_congr {graph after : PlanGraph} {demands : List Demand}
    (same : ∀ demand ∈ demands, after.holder demand = graph.holder demand) (name : String) :
    (demands.find? fun demand => after.holder demand = name) =
      demands.find? fun demand => graph.holder demand = name := by
  induction demands with
  | nil => rfl
  | cons demand demands ih =>
      have rest := ih fun other member => same other (List.mem_cons_of_mem _ member)
      rw [List.find?_cons, List.find?_cons, same demand List.mem_cons_self, rest]

namespace PlanGraph.Records

variable {graph after : PlanGraph} {demands : List Demand}

theorem empty : Records ∅ [] where
  settled := by simp
  first := fun _ => rfl

theorem keep (records : graph.Records demands) (keeps : Keeps graph after)
    (conditions : after.condition? = graph.condition?) : after.Records demands where
  settled := fun demand member => (keeps.settled (records.settled demand member)).2
  first := by
    intro name
    rw [conditions, records.first, find?_holder_congr fun demand member =>
      keeps.holder_eq (records.settled demand member)]

theorem register (records : graph.Records demands) (demand : Demand) (sink : Nat) :
    (graph.registerCondition demand.name sink demand.condition).2.Records (demands ++ [demand]) := by
  have keeps : Keeps graph (graph.registerCondition demand.name sink demand.condition).2 :=
    .registerCondition demand.name sink demand.condition
  obtain ⟨answer, settled⟩ :=
    Keeps.answer_registerCondition graph demand.name sink demand.condition
  have holders : ∀ other ∈ demands ++ [demand],
      (graph.registerCondition demand.name sink demand.condition).2.holder other =
        graph.holder other := by
    intro other member
    rcases mem_append_singleton.mp member with older | own
    · exact keeps.holder_eq (records.settled other older)
    · rw [own]
      exact answer
  constructor
  · intro other member
    rcases mem_append_singleton.mp member with older | own
    · exact (keeps.settled (records.settled other older)).2
    · rw [own]
      exact settled
  · intro name
    rw [find?_holder_congr holders, List.find?_append, condition?_registerCondition,
      records.first, records.first]
    by_cases same : name = graph.nameFor demand.name .condition
    · subst same
      cases found : demands.find? fun other =>
          graph.holder other = graph.nameFor demand.name .condition with
      | none => simp [holder]
      | some other => simp
    · have other : ¬ graph.nameFor demand.name .condition = name := fun equal => same equal.symm
      simp [holder, same, other]

/-- A demand for a name that was demanded before is answered with the same edge. -/
theorem again (records : graph.Records demands) {demand older : Demand} (member : older ∈ demands)
    (same : older.name = demand.name) : graph.Records (demands ++ [demand]) := by
  have holders : graph.holder older = graph.holder demand := by rw [holder, holder, same]
  constructor
  · intro other among
    rcases mem_append_singleton.mp among with before | own
    · exact records.settled other before
    · rw [own, ← same]
      exact records.settled older member
  · intro name
    rw [records.first, List.find?_append]
    cases found : demands.find? fun other => graph.holder other = name with
    | some other => simp
    | none =>
        have elsewhere := List.find?_eq_none.mp found older member
        simp only [holders, decide_eq_true_eq] at elsewhere
        simp [elsewhere]

end PlanGraph.Records

end ContingentPlan
