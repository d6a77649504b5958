import ContingentPlan.Proofs.Graph.Edges

/-!
Completion edges. Each node has one output, an action edge that only this node produces, and each
action edge is the output of a node. Every action edge leads from its producer to later nodes.
-/

namespace ContingentPlan

structure Completed (graph : PlanGraph) (nodes : List Node) : Prop where
  output : ∀ node ∈ nodes, ∃ name, node.output = [name] ∧
    graph.producers? name = some [node.id] ∧ PlanGraph.IsCompletionName node.id name
  produced : ∀ name sources, graph.producers? name = some sources →
    ∃ node ∈ nodes, node.output = [name]

namespace Completed

variable {graph after : PlanGraph} {nodes : List Node}

theorem empty : Completed ∅ [] where
  output := by simp
  produced := by
    intro name sources found
    cases found

theorem producer (completed : Completed graph nodes) {name : String} {sources : List Nat}
    (found : graph.producers? name = some sources) :
    ∃ node ∈ nodes, node.output = [name] ∧ sources = [node.id] ∧
      PlanGraph.IsCompletionName node.id name := by
  obtain ⟨node, member, output⟩ := completed.produced name sources found
  obtain ⟨held, single, producers, named⟩ := completed.output node member
  rw [output, List.cons.injEq] at single
  obtain rfl := single.1
  rw [found, Option.some.injEq] at producers
  exact ⟨node, member, output, producers, named⟩

theorem congr (completed : Completed graph nodes) (same : after.producers? = graph.producers?) :
    Completed after nodes where
  output := by rw [same]; exact completed.output
  produced := by rw [same]; exact completed.produced

theorem free (completed : Completed graph nodes) {id : Nat}
    (newest : ∀ older ∈ nodes, older.id < id) :
    graph.edge? (graph.nameFor s!"e{id}" .action) = none := by
  cases found : graph.edge? (graph.nameFor s!"e{id}" .action) with
  | none => rfl
  | some edge =>
      have action := PlanGraph.kind_of_admits (graph.nameFor_admits s!"e{id}" .action) found
      obtain ⟨older, member, -, -, named⟩ :=
        completed.producer (PlanGraph.producers?_of_edge? found action)
      have same := named.id_eq (graph.nameFor_isCompletionName id)
      have below := newest older member
      omega

theorem add (completed : Completed graph nodes) {node : Node}
    (newest : ∀ older ∈ nodes, older.id < node.id)
    (output : node.output = [graph.nameFor s!"e{node.id}" .action]) :
    Completed (graph.addActionEdge s!"e{node.id}" node.id).2 (nodes ++ [node]) where
  output := by
    intro other member
    have named := graph.nameFor_isCompletionName node.id
    rcases List.mem_append.mp member with older | single
    · obtain ⟨name, held, producers, ofOther⟩ := completed.output other older
      refine ⟨name, held, ?_, ofOther⟩
      have different : name ≠ graph.nameFor s!"e{node.id}" .action := by
        intro same
        have sameId := ofOther.id_eq (same ▸ named)
        have below := newest other older
        omega
      rw [PlanGraph.producers?_addActionEdge, if_neg different]
      exact producers
    · rw [List.mem_singleton] at single
      subst other
      refine ⟨_, output, ?_, named⟩
      rw [PlanGraph.producers?_addActionEdge, if_pos rfl]
  produced := by
    intro name sources found
    rw [PlanGraph.producers?_addActionEdge] at found
    split at found
    · rename_i same
      exact ⟨node, by simp, by rw [output, same]⟩
    · obtain ⟨older, member, held⟩ := completed.produced name sources found
      exact ⟨older, List.mem_append_left _ member, held⟩

/-- No completion edge has the name of an outcome, so an outcome edge keeps its name. -/
theorem nameFor_outcomeEdge (completed : Completed graph nodes) (value : Bool) (fact : String) :
    graph.nameFor (Reading.outcomeEdge value fact) .condition = Reading.outcomeEdge value fact := by
  apply PlanGraph.nameFor_eq_of_admits
  cases found : graph.edge? (Reading.outcomeEdge value fact) with
  | none => simp [PlanGraph.admits, found]
  | some edge =>
      cases kind : edge.kind with
      | condition => simp [PlanGraph.admits, found, kind]
      | action =>
          obtain ⟨_, -, -, -, named⟩ :=
            completed.producer (PlanGraph.producers?_of_edge? found kind)
          exact absurd rfl (named.ne_outcomeEdge value fact)

end Completed

def Forward (graph : PlanGraph) : Prop :=
  ∀ name sources, graph.producers? name = some sources →
    ∀ source ∈ sources, ∀ sink ∈ graph.sinksAt name, source < sink

namespace Forward

variable {graph : PlanGraph}

theorem empty : Forward ∅ := by
  intro name sources found
  cases found

theorem connect (forward : Forward graph) {name : String} {sources : List Nat} {sink : Nat}
    (action : graph.producers? name = some sources) (later : ∀ source ∈ sources, source < sink) :
    Forward (graph.connect name sink) := by
  intro other producers found source member target fed
  rw [PlanGraph.producers?_connect] at found
  rw [PlanGraph.sinksAt_connect action] at fed
  split at fed
  · rename_i same
    subst other
    rw [action, Option.some.injEq] at found
    subst found
    rcases Edge.mem_extendSinks.mp fed with rfl | present
    · exact later source member
    · exact forward name sources action source member target present
  · exact forward other producers found source member target fed

theorem registerCondition (forward : Forward graph) (name : String) (sink : Nat)
    (condition : Condition) : Forward (graph.registerCondition name sink condition).2 := by
  intro other producers found source member target fed
  rw [PlanGraph.producers?_registerCondition] at found
  rw [PlanGraph.sinksAt_registerCondition] at fed
  split at fed
  · rename_i same
    rw [same, PlanGraph.producers?_nameFor_condition] at found
    cases found
  · exact forward other producers found source member target fed

theorem addActionEdge (forward : Forward graph) {name : String}
    (free : graph.edge? (graph.nameFor name .action) = none) (source : Nat) :
    Forward (graph.addActionEdge name source).2 := by
  intro other producers found producer member target fed
  rw [PlanGraph.producers?_addActionEdge] at found
  rw [PlanGraph.sinksAt_addActionEdge free] at fed
  split at found
  · rename_i same
    rw [same, PlanGraph.sinksAt, free] at fed
    cases fed
  · exact forward other producers found producer member target fed

end Forward

end ContingentPlan
