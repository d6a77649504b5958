import ContingentPlan.Proofs.Graph.Naming

/-!
Two views of the edges of a graph: the sinks under a name, and the producers under a name that an
action edge holds. Feeding a node changes the first view at one name and leaves the second alone; a
new completion edge changes the second view at one name and leaves the first alone.
-/

namespace ContingentPlan

namespace Edge

@[simp] theorem sinks_addSink (node : Nat) (edge : Edge) :
    (edge.addSink node).sinks = extendSinks edge.sinks node := by
  cases edge <;> rfl

theorem mem_extendSinks {sinks : List Nat} {node other : Nat} :
    other ∈ extendSinks sinks node ↔ other = node ∨ other ∈ sinks := by
  unfold extendSinks
  split
  · rename_i present
    constructor
    · exact Or.inr
    · rintro (rfl | member)
      · exact present
      · exact member
  · simp [or_comm]

theorem extendSinks_of_mem {sinks : List Nat} {node : Nat} (present : node ∈ sinks) :
    extendSinks sinks node = sinks :=
  if_pos present

theorem extendSinks_perm (sinks : List Nat) (first second : Nat) :
    (extendSinks (extendSinks sinks first) second).Perm
      (extendSinks (extendSinks sinks second) first) := by
  by_cases same : first = second
  · rw [same]
  · by_cases ofFirst : first ∈ sinks
    · rw [extendSinks_of_mem ofFirst,
        extendSinks_of_mem (mem_extendSinks.mpr (Or.inr ofFirst))]
    · by_cases ofSecond : second ∈ sinks
      · rw [extendSinks_of_mem ofSecond,
          extendSinks_of_mem (mem_extendSinks.mpr (Or.inr ofSecond))]
      · have different : ¬ second = first := fun equal => same equal.symm
        simp only [extendSinks, List.mem_append, List.mem_singleton, ofFirst, ofSecond, same, different,
          or_self, if_false, List.append_assoc]
        exact (List.Perm.swap second first []).append_left sinks

theorem extendSinks_ne_nil (sinks : List Nat) (node : Nat) : extendSinks sinks node ≠ [] :=
  List.ne_nil_of_mem (mem_extendSinks.mpr (Or.inl rfl))

end Edge

namespace PlanGraph

def sinksAt (graph : PlanGraph) (name : String) : List Nat :=
  match graph.edge? name with
  | some edge => edge.sinks
  | none => []

/-- The nodes whose completion the edge of a name marks, if it is an action edge. -/
def producers? (graph : PlanGraph) (name : String) : Option (List Nat) :=
  match graph.edge? name with
  | some (.action _ sources _ _) => some sources
  | _ => none

theorem mem_sinksAt_iff {graph : PlanGraph} {name : String} {id : Nat} :
    id ∈ graph.sinksAt name ↔ ∃ edge, graph.edge? name = some edge ∧ id ∈ edge.sinks := by
  cases found : graph.edge? name <;> simp [sinksAt, found]

theorem sinksAt_of_edge? {graph : PlanGraph} {name : String} {edge : Edge}
    (found : graph.edge? name = some edge) : graph.sinksAt name = edge.sinks := by
  simp [sinksAt, found]

theorem producers?_eq_some_iff {graph : PlanGraph} {name : String} {sources : List Nat} :
    graph.producers? name = some sources ↔
      ∃ edge, graph.edge? name = some edge ∧ edge.kind = .action ∧ edge.sources = sources := by
  cases found : graph.edge? name with
  | none => simp [producers?, found]
  | some edge => cases edge <;> simp [producers?, found, Edge.kind, Edge.sources]

theorem producers?_of_edge? {graph : PlanGraph} {name : String} {edge : Edge}
    (found : graph.edge? name = some edge) (action : edge.kind = .action) :
    graph.producers? name = some edge.sources :=
  producers?_eq_some_iff.mpr ⟨edge, found, action, rfl⟩

/-! What the operations do. -/

theorem edge?_connect (graph : PlanGraph) (name other : String) (sink : Nat) :
    (graph.connect name sink).edge? other =
      if other = name then (graph.edge? name).map (·.addSink sink) else graph.edge? other :=
  Catalog.find?_modify graph.edges name other (·.addSink sink)

theorem edge?_addActionEdge (graph : PlanGraph) (name other : String) (source : Nat) :
    (graph.addActionEdge name source).2.edge? other =
      if other = graph.nameFor name .action then
        some (.action (graph.nameFor name .action) [source] [] false)
      else graph.edge? other :=
  Catalog.find?_insert graph.edges _ other _

theorem edge?_registerCondition (graph : PlanGraph) (name other : String) (sink : Nat)
    (condition : Condition) :
    (graph.registerCondition name sink condition).2.edge? other =
      if other = graph.nameFor name .condition then
        some (((graph.edge? (graph.nameFor name .condition)).getD
          (.condition (graph.nameFor name .condition) [] false)).addSink sink)
      else graph.edge? other := by
  simp only [registerCondition, edge?, Catalog.find?_modify, Catalog.find?_insertIfNew]
  by_cases same : other = graph.nameFor name .condition <;> simp [same]

@[simp] theorem nodes_connect (graph : PlanGraph) (name : String) (sink : Nat) :
    (graph.connect name sink).nodes = graph.nodes := rfl

@[simp] theorem nodes_registerCondition (graph : PlanGraph) (name : String) (sink : Nat)
    (condition : Condition) :
    (graph.registerCondition name sink condition).2.nodes = graph.nodes := rfl

theorem sinksAt_connect {graph : PlanGraph} {name : String} {sources : List Nat}
    (action : graph.producers? name = some sources) (sink : Nat) (other : String) :
    (graph.connect name sink).sinksAt other =
      if other = name then Edge.extendSinks (graph.sinksAt name) sink else graph.sinksAt other := by
  obtain ⟨edge, found, -⟩ := producers?_eq_some_iff.mp action
  by_cases same : other = name
  · simp [sinksAt, edge?_connect, same, found]
  · simp [sinksAt, edge?_connect, same]

@[simp] theorem producers?_connect (graph : PlanGraph) (name : String) (sink : Nat) :
    (graph.connect name sink).producers? = graph.producers? := by
  funext other
  by_cases same : other = name
  · subst other
    cases found : graph.edge? name with
    | none => simp [producers?, edge?_connect, found]
    | some edge => cases edge <;> simp [producers?, edge?_connect, found, Edge.addSink]
  · simp [producers?, edge?_connect, same]

theorem sinksAt_registerCondition (graph : PlanGraph) (name other : String) (sink : Nat)
    (condition : Condition) :
    (graph.registerCondition name sink condition).2.sinksAt other =
      if other = graph.nameFor name .condition then
        Edge.extendSinks (graph.sinksAt (graph.nameFor name .condition)) sink
      else graph.sinksAt other := by
  by_cases same : other = graph.nameFor name .condition
  · cases found : graph.edge? (graph.nameFor name .condition) with
    | none => simp [sinksAt, edge?_registerCondition, same, found, Edge.addSink, Edge.sinks]
    | some edge => simp [sinksAt, edge?_registerCondition, same, found]
  · simp [sinksAt, edge?_registerCondition, same]

theorem producers?_nameFor_condition (graph : PlanGraph) (name : String) :
    graph.producers? (graph.nameFor name .condition) = none := by
  have admitted := graph.nameFor_admits name .condition
  cases found : graph.edge? (graph.nameFor name .condition) with
  | none => simp [producers?, found]
  | some edge =>
      have kind := kind_of_admits admitted found
      cases edge with
      | action => simp [Edge.kind] at kind
      | condition => simp [producers?, found]

@[simp] theorem producers?_registerCondition (graph : PlanGraph) (name : String) (sink : Nat)
    (condition : Condition) :
    (graph.registerCondition name sink condition).2.producers? = graph.producers? := by
  funext other
  by_cases same : other = graph.nameFor name .condition
  · subst other
    rw [producers?_nameFor_condition]
    have admitted := graph.nameFor_admits name .condition
    cases found : graph.edge? (graph.nameFor name .condition) with
    | none => simp [producers?, edge?_registerCondition, found, Edge.addSink]
    | some edge =>
        have kind := kind_of_admits admitted found
        cases edge with
        | action => simp [Edge.kind] at kind
        | condition => simp [producers?, edge?_registerCondition, found, Edge.addSink]
  · simp [producers?, edge?_registerCondition, same]

theorem admits_condition (graph : PlanGraph) (name : String) :
    graph.admits .condition name = (graph.producers? name).isNone := by
  rw [admits, producers?]
  cases graph.edge? name with
  | none => rfl
  | some edge => cases edge <;> rfl

/-- A condition edge stands in the way of no other one. -/
theorem admits_registerCondition (graph : PlanGraph) (name : String) (sink : Nat)
    (condition : Condition) :
    (graph.registerCondition name sink condition).2.admits .condition = graph.admits .condition := by
  funext other
  rw [admits_condition, admits_condition, producers?_registerCondition]

theorem nameFor_registerCondition (graph : PlanGraph) (name other : String) (sink : Nat)
    (condition : Condition) :
    (graph.registerCondition name sink condition).2.nameFor other .condition =
      graph.nameFor other .condition :=
  nameFor_congr (graph.admits_registerCondition name sink condition) other

theorem sinksAt_addActionEdge {graph : PlanGraph} {name : String}
    (free : graph.edge? (graph.nameFor name .action) = none) (source : Nat) :
    (graph.addActionEdge name source).2.sinksAt = graph.sinksAt := by
  funext other
  by_cases same : other = graph.nameFor name .action
  · simp [sinksAt, edge?_addActionEdge, same, free, Edge.sinks]
  · simp [sinksAt, edge?_addActionEdge, same]

theorem producers?_addActionEdge (graph : PlanGraph) (name other : String) (source : Nat) :
    (graph.addActionEdge name source).2.producers? other =
      if other = graph.nameFor name .action then some [source] else graph.producers? other := by
  by_cases same : other = graph.nameFor name .action
  · simp [producers?, edge?_addActionEdge, same]
  · simp [producers?, edge?_addActionEdge, same]

end PlanGraph

end ContingentPlan
