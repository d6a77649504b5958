import ContingentPlan.Proofs.Graph.Registry
import ContingentPlan.Proofs.Requirement

/-!
Condition edges that are registered into one node. They change the sinks of the edges that answer and no
later answer. So what a node is supplied with is registered again to no effect, and it makes no difference
which of two nodes is fed first.
-/

namespace ContingentPlan

theorem foldl_addInput_of_subset {names : List String} {node : Node}
    (listed : ∀ name ∈ names, name ∈ node.inputEdges) : names.foldl Node.addInput node = node := by
  induction names with
  | nil => rfl
  | cons name names ih =>
      have own : node.addInput name = node := by
        simp [Node.addInput, Node.hasInput, listed name List.mem_cons_self]
      rw [List.foldl_cons, own]
      exact ih fun other member => listed other (List.mem_cons_of_mem _ member)

theorem exists_added_inputs (names : List String) (node : Node) :
    ∃ added, (names.foldl Node.addInput node).inputEdges = node.inputEdges ++ added ∧ added.Nodup ∧
      ∀ name, name ∈ added ↔ name ∈ names ∧ name ∉ node.inputEdges := by
  induction names generalizing node with
  | nil => exact ⟨[], by simp⟩
  | cons first names ih =>
      obtain ⟨added, inputs, unique, mem_iff⟩ := ih (node.addInput first)
      rw [List.foldl_cons, inputs, Node.inputEdges_addInput]
      split
      · rename_i listed
        refine ⟨added, rfl, unique, ?_⟩
        intro name
        rw [mem_iff, Node.mem_inputEdges_addInput, List.mem_cons]
        by_cases same : name = first
        · simp [same, listed]
        · simp [same]
      · rename_i unlisted
        refine ⟨first :: added, by simp, ?_, ?_⟩
        · rw [List.nodup_cons, mem_iff, Node.mem_inputEdges_addInput]
          exact ⟨by simp, unique⟩
        · intro name
          rw [List.mem_cons, mem_iff, Node.mem_inputEdges_addInput, List.mem_cons]
          by_cases same : name = first
          · simp [same, unlisted]
          · simp [same]

namespace PlanGraph

/-- A condition edge leads into the node and has its record. -/
structure Supplies (graph : PlanGraph) (name : String) (sink : Nat) : Prop where
  fed : sink ∈ graph.sinksAt (graph.nameFor name .condition)
  recorded : ∃ record, graph.condition? (graph.nameFor name .condition) = some record

theorem supplies_registerCondition (graph : PlanGraph) (name : String) (sink : Nat)
    (condition : Condition) :
    (graph.registerCondition name sink condition).2.Supplies name sink where
  fed := by
    rw [nameFor_registerCondition, sinksAt_registerCondition, if_pos rfl]
    exact Edge.mem_extendSinks.mpr (Or.inl rfl)
  recorded := by
    rw [nameFor_registerCondition, condition?_registerCondition, if_pos rfl]
    exact ⟨_, rfl⟩

theorem Supplies.registerCondition {graph : PlanGraph} {name : String} {sink : Nat}
    (supplies : graph.Supplies name sink) (other : String) (node : Nat) (condition : Condition) :
    (graph.registerCondition other node condition).2.Supplies name sink where
  fed := by
    rw [nameFor_registerCondition, sinksAt_registerCondition]
    split
    · rename_i same
      rw [← same]
      exact Edge.mem_extendSinks.mpr (Or.inr supplies.fed)
    · exact supplies.fed
  recorded := by
    rw [nameFor_registerCondition, condition?_registerCondition]
    split
    · exact ⟨_, rfl⟩
    · exact supplies.recorded

theorem registerCondition_of_supplies {graph : PlanGraph} {name : String} {sink : Nat}
    (supplies : graph.Supplies name sink) (condition : Condition) :
    (graph.registerCondition name sink condition).2 = graph := by
  obtain ⟨edge, held, present⟩ := mem_sinksAt_iff.mp supplies.fed
  obtain ⟨record, recorded⟩ := supplies.recorded
  have sated : edge.addSink sink = edge := by
    cases edge <;> simpa [Edge.addSink, Edge.extendSinks, Edge.sinks] using present
  have edges : (graph.registerCondition name sink condition).2.edges = graph.edges := by
    apply Catalog.eq_of_find?
    intro other
    have found := graph.edge?_registerCondition name other sink condition
    rw [held, Option.getD_some, sated, ← held] at found
    exact found.trans (ite_eq_right_iff.mpr fun same => by rw [same])
  have conditions : (graph.registerCondition name sink condition).2.conditions = graph.conditions := by
    apply Catalog.eq_of_find?
    intro other
    have found := graph.condition?_registerCondition name other sink condition
    rw [recorded, Option.getD_some, ← recorded] at found
    exact found.trans (ite_eq_right_iff.mpr fun same => by rw [same])
  exact congrArg₂ (PlanGraph.mk graph.nodes) edges conditions

def feed (graph : PlanGraph) (sink : Nat) (conditions : List Condition) : PlanGraph :=
  conditions.foldl (fun graph condition =>
    (graph.registerCondition condition.signature sink condition).2) graph

/-- The edges that the graph answers the conditions with. -/
def answers (graph : PlanGraph) (conditions : List Condition) : List String :=
  conditions.map fun condition => graph.nameFor condition.signature .condition

variable {graph after : PlanGraph} {sink : Nat}

@[simp] theorem feed_cons (graph : PlanGraph) (sink : Nat) (condition : Condition)
    (conditions : List Condition) :
    graph.feed sink (condition :: conditions) =
      (graph.registerCondition condition.signature sink condition).2.feed sink conditions := rfl

@[simp] theorem answers_cons (graph : PlanGraph) (condition : Condition)
    (conditions : List Condition) :
    graph.answers (condition :: conditions) =
      graph.nameFor condition.signature .condition :: graph.answers conditions := rfl

theorem answers_congr (same : after.admits .condition = graph.admits .condition)
    (conditions : List Condition) : after.answers conditions = graph.answers conditions :=
  List.map_congr_left fun condition _ => nameFor_congr same condition.signature

theorem admits_feed (graph : PlanGraph) (sink : Nat) (conditions : List Condition) :
    (graph.feed sink conditions).admits .condition = graph.admits .condition := by
  induction conditions generalizing graph with
  | nil => rfl
  | cons condition conditions ih => rw [feed_cons, ih, admits_registerCondition]

theorem sinksAt_feed (graph : PlanGraph) (sink : Nat) (conditions : List Condition) (name : String) :
    (graph.feed sink conditions).sinksAt name =
      if name ∈ graph.answers conditions then Edge.extendSinks (graph.sinksAt name) sink
      else graph.sinksAt name := by
  induction conditions generalizing graph with
  | nil => rfl
  | cons condition conditions ih =>
      rw [feed_cons, ih, sinksAt_registerCondition,
        answers_congr (graph.admits_registerCondition _ _ _)]
      simp only [answers_cons, List.mem_cons]
      by_cases same : name = graph.nameFor condition.signature .condition
      · rw [← same, if_pos rfl, if_pos (Or.inl rfl)]
        split
        · exact Edge.extendSinks_of_mem (Edge.mem_extendSinks.mpr (Or.inl rfl))
        · rfl
      · simp [same]

theorem kind_feed (graph : PlanGraph) (sink : Nat) (conditions : List Condition) (name : String) :
    ((graph.feed sink conditions).edge? name).map Edge.kind =
      if name ∈ graph.answers conditions then some .condition
      else (graph.edge? name).map Edge.kind := by
  induction conditions generalizing graph with
  | nil => rfl
  | cons condition conditions ih =>
      rw [feed_cons, ih, edge?_registerCondition,
        answers_congr (graph.admits_registerCondition _ _ _)]
      simp only [answers_cons, List.mem_cons]
      by_cases same : name = graph.nameFor condition.signature .condition
      · have kind : (((graph.edge? name).getD (.condition name [] false)).addSink sink).kind =
            .condition := by
          have admitted := graph.nameFor_admits condition.signature .condition
          rw [← same] at admitted
          rw [Edge.kind_addSink]
          cases found : graph.edge? name with
          | none => rfl
          | some edge => exact kind_of_admits admitted found
        rw [← same, if_pos rfl, if_pos (Or.inl rfl), Option.map_some, kind]
        split <;> rfl
      · simp [same]

theorem feed_of_supplies {conditions : List Condition}
    (supplied : ∀ condition ∈ conditions, graph.Supplies condition.signature sink) :
    graph.feed sink conditions = graph := by
  induction conditions with
  | nil => rfl
  | cons condition conditions ih =>
      rw [feed_cons, registerCondition_of_supplies (supplied condition List.mem_cons_self)]
      exact ih fun other member => supplied other (List.mem_cons_of_mem _ member)

theorem Supplies.feed {name : String} (supplies : graph.Supplies name sink)
    (conditions : List Condition) : (graph.feed sink conditions).Supplies name sink := by
  induction conditions generalizing graph with
  | nil => exact supplies
  | cons condition conditions ih => exact ih (supplies.registerCondition _ _ _)

theorem supplies_feed (graph : PlanGraph) {conditions : List Condition} {condition : Condition}
    (member : condition ∈ conditions) :
    (graph.feed sink conditions).Supplies condition.signature sink := by
  induction conditions generalizing graph with
  | nil => cases member
  | cons first conditions ih =>
      rcases List.mem_cons.mp member with rfl | later
      · exact (graph.supplies_registerCondition _ _ _).feed conditions
      · exact ih _ later

theorem Supplies.requires {domain : Domain} {node final : Node} {name : String}
    (supplies : graph.Supplies name sink) (requires : Requires domain graph node after final) :
    after.Supplies name sink := by
  induction requires with
  | refl => exact supplies
  | step _ _ ih => exact ih.registerCondition _ _ _

structure SameEdges (graph other : PlanGraph) : Prop where
  kinds : ∀ name, (graph.edge? name).map Edge.kind = (other.edge? name).map Edge.kind
  sinks : ∀ name, (graph.sinksAt name).Perm (other.sinksAt name)

theorem sameEdges_feed (graph : PlanGraph) (first second : Nat) (ofFirst ofSecond : List Condition) :
    SameEdges ((graph.feed first ofFirst).feed second ofSecond)
      ((graph.feed second ofSecond).feed first ofFirst) where
  kinds := by
    intro name
    simp only [kind_feed, answers_congr (graph.admits_feed _ _)]
    split
    · split <;> rfl
    · rfl
  sinks := by
    intro name
    simp only [sinksAt_feed, answers_congr (graph.admits_feed _ _)]
    split
    · split
      · exact Edge.extendSinks_perm _ _ _
      · exact .rfl
    · exact .rfl

end PlanGraph

end ContingentPlan
