import ContingentPlan.Proofs.Reading.Sound

/-!
A graph only grows while a block is read: stored nodes keep their place and their inputs, and the
inputs keep their kind. So what feeds an action is settled when its line is read.
-/

namespace ContingentPlan

namespace PlanGraph

def actionInputs (graph : PlanGraph) (node : Node) : List String :=
  node.inputEdges.filter fun name => (graph.producers? name).isSome

def completionEdge? (graph : PlanGraph) (id : Nat) : Option String :=
  (graph.node? id).bind fun node => node.output.head?

def Completes (graph : PlanGraph) (ids : List Nat) (edges : List String) : Prop :=
  ids.map graph.completionEdge? = edges.map some

theorem Completes.append {graph : PlanGraph} {first second : List Nat}
    {firstEdges secondEdges : List String} (left : graph.Completes first firstEdges)
    (right : graph.Completes second secondEdges) :
    graph.Completes (first ++ second) (firstEdges ++ secondEdges) := by
  unfold Completes at left right ⊢
  rw [List.map_append, List.map_append, left, right]

theorem completes_cons {graph : PlanGraph} {id : Nat} {ids : List Nat} {edge : String}
    {edges : List String} : graph.Completes (id :: ids) (edge :: edges) ↔
      graph.completionEdge? id = some edge ∧ graph.Completes ids edges := by
  unfold Completes
  rw [List.map_cons, List.map_cons, List.cons.injEq]

theorem completes_singleton {graph : PlanGraph} {id : Nat} {edge : String} :
    graph.Completes [id] [edge] ↔ graph.completionEdge? id = some edge := by
  rw [completes_cons]
  simp [Completes]

/-- The node of that number performs the action, and its action inputs are the completion edges of
the sources. -/
def Fed (graph : PlanGraph) (id : Nat) (signature : Signature) (sources : List Nat) : Prop :=
  ∃ node, graph.node? id = some node ∧ node.name = signature.text ∧
    graph.Completes sources (graph.actionInputs node)

def Gated (graph : PlanGraph) (id : Nat) (outcome : Bool) (fact : String) : Prop :=
  ∃ node, graph.node? id = some node ∧ Reading.outcomeEdge outcome fact ∈ node.inputEdges

theorem node?_addNode {graph : PlanGraph} {node : Node}
    (newest : ∀ older ∈ graph.nodes, older.id < node.id) :
    (graph.addNode node).node? node.id = some node := by
  have absent : graph.nodes.find? (·.id == node.id) = none := by
    rw [List.find?_eq_none]
    intro older member same
    have below := newest older member
    have equal : older.id = node.id := by simpa using same
    omega
  simp [node?, addNode, absent]

end PlanGraph

structure Grows (graph after : PlanGraph) : Prop where
  nodes : ∃ more, after.nodes = graph.nodes ++ more
  producers : ∀ node ∈ graph.nodes, ∀ name ∈ node.inputEdges,
    after.producers? name = graph.producers? name

namespace Grows

variable {graph middle after : PlanGraph}

theorem refl : Grows graph graph where
  nodes := ⟨[], by simp⟩
  producers := by simp

theorem trans (first : Grows graph middle) (second : Grows middle after) : Grows graph after := by
  obtain ⟨some, nodes⟩ := first.nodes
  obtain ⟨more, later⟩ := second.nodes
  constructor
  · exact ⟨some ++ more, by rw [later, nodes, List.append_assoc]⟩
  · intro node member name input
    have present : node ∈ middle.nodes := by
      rw [nodes]
      exact List.mem_append_left _ member
    rw [second.producers node present name input, first.producers node member name input]

theorem node? (grows : Grows graph after) {id : Nat} {node : Node}
    (found : graph.node? id = some node) : after.node? id = some node := by
  obtain ⟨more, nodes⟩ := grows.nodes
  rw [PlanGraph.node?] at found
  rw [PlanGraph.node?, nodes, List.find?_append, found]
  rfl

theorem completionEdge? (grows : Grows graph after) {id : Nat} {name : String}
    (found : graph.completionEdge? id = some name) : after.completionEdge? id = some name := by
  obtain ⟨node, stored, output⟩ := Option.bind_eq_some_iff.mp found
  rw [PlanGraph.completionEdge?, grows.node? stored]
  exact output

theorem completes (grows : Grows graph after) {ids : List Nat} {edges : List String}
    (completes : graph.Completes ids edges) : after.Completes ids edges := by
  induction ids generalizing edges with
  | nil => exact completes
  | cons id ids ih =>
      cases edges with
      | nil => cases completes
      | cons edge edges =>
          obtain ⟨named, rest⟩ := PlanGraph.completes_cons.mp completes
          exact PlanGraph.completes_cons.mpr ⟨grows.completionEdge? named, ih rest⟩

theorem actionInputs (grows : Grows graph after) {node : Node} (member : node ∈ graph.nodes) :
    after.actionInputs node = graph.actionInputs node := by
  apply List.filter_congr
  intro name input
  rw [grows.producers node member name input]

theorem fed (grows : Grows graph after) {id : Nat} {signature : Signature} {sources : List Nat}
    (fed : graph.Fed id signature sources) : after.Fed id signature sources := by
  obtain ⟨node, stored, name, inputs⟩ := fed
  refine ⟨node, grows.node? stored, name, ?_⟩
  rw [grows.actionInputs (List.mem_of_find?_eq_some stored)]
  exact grows.completes inputs

theorem gated (grows : Grows graph after) {id : Nat} {outcome : Bool} {fact : String}
    (gated : graph.Gated id outcome fact) : after.Gated id outcome fact := by
  obtain ⟨node, stored, waits⟩ := gated
  exact ⟨node, grows.node? stored, waits⟩

end Grows

theorem mem_inputEdges_foldl_addInput {names : List String} {node : Node} {name : String} :
    name ∈ (names.foldl Node.addInput node).inputEdges ↔
      name ∈ node.inputEdges ∨ name ∈ names := by
  induction names generalizing node with
  | nil => simp
  | cons first names ih =>
      rw [List.foldl_cons, ih, Node.mem_inputEdges_addInput, List.mem_cons]
      constructor
      · rintro ((rfl | listed) | later)
        · exact Or.inr (Or.inl rfl)
        · exact Or.inl listed
        · exact Or.inr (Or.inr later)
      · rintro (listed | rfl | later)
        · exact Or.inl (Or.inr listed)
        · exact Or.inl (Or.inl rfl)
        · exact Or.inr later

namespace Sound

variable {reading : Reading}

theorem completionEdge?_spec (sound : Sound reading) {id : Nat} {name : String}
    (found : reading.graph.completionEdge? id = some name) :
    reading.graph.producers? name = some [id] ∧ PlanGraph.IsCompletionName id name := by
  obtain ⟨node, stored, output⟩ := Option.bind_eq_some_iff.mp found
  obtain ⟨single, held, producers, named⟩ :=
    sound.completed.output node (List.mem_of_find?_eq_some stored)
  have same : node.id = id := by simpa using List.find?_some stored
  rw [held, List.head?_cons, Option.some.injEq] at output
  rw [← output, ← same]
  exact ⟨producers, named⟩

theorem completionEdge?_injective (sound : Sound reading) {first second : Nat} {name : String}
    (ofFirst : reading.graph.completionEdge? first = some name)
    (ofSecond : reading.graph.completionEdge? second = some name) : first = second :=
  (sound.completionEdge?_spec ofFirst).2.id_eq (sound.completionEdge?_spec ofSecond).2

theorem newest_unfed (sound : Sound reading) {id : Nat} {name : String}
    (found : reading.graph.completionEdge? id = some name) (newest : reading.nextId = id + 1) :
    ∃ edge, reading.graph.edge? name = some edge ∧ edge.kind = .action ∧ edge.sinks = [] := by
  obtain ⟨producers, -⟩ := sound.completionEdge?_spec found
  obtain ⟨edge, held, kind, -⟩ := PlanGraph.producers?_eq_some_iff.mp producers
  refine ⟨edge, held, kind, ?_⟩
  rw [← PlanGraph.sinksAt_of_edge? held, List.eq_nil_iff_forall_not_mem]
  intro sink fed
  have later := sound.forward name [id] producers id List.mem_cons_self sink fed
  obtain ⟨node, member, same⟩ := sound.linked.stored name sink fed
  have below := sound.older node member
  omega

theorem ne_completion (sound : Sound reading) {node : Node} (member : node ∈ reading.graph.nodes)
    {name : String} (input : name ∈ node.inputEdges) : name ≠ reading.completion := by
  intro same
  have fed := (sound.linked.input_iff node member name).mp input
  have live : ∀ parent ∈ reading.parents,
      ∃ sources, reading.graph.producers? parent = some sources :=
    fun parent listed => (sound.liveParents listed).imp fun _ facts => facts.1
  have still : reading.connected.sinksAt name ≠ [] :=
    sinksAt_foldl_connect_ne_nil live (Or.inr (List.ne_nil_of_mem fed))
  rw [same, PlanGraph.sinksAt, sound.free] at still
  exact still rfl

variable {after : Reading} {domain : Domain} {line : Nat} {signature : Signature}
  {parameters : List Binding} {graph : PlanGraph} {node : Node}

theorem grows_act (sound : Sound reading)
    (acted : Reading.Acted domain line signature reading after parameters graph node) :
    Grows reading.graph after.graph := by
  constructor
  · exact ⟨[node], acted.nodes_after⟩
  · intro older member name input
    rw [acted.after_eq]
    change graph.producers? name = reading.graph.producers? name
    rw [acted.requires.producers?_eq, Reading.producers?_outfitted,
      if_neg (sound.ne_completion member input)]

theorem node?_act (sound : Sound reading)
    (acted : Reading.Acted domain line signature reading after parameters graph node) :
    after.graph.node? reading.nextId = some node := by
  rw [acted.after_eq, ← acted.id_eq]
  apply PlanGraph.node?_addNode
  rw [acted.nodes_eq, acted.id_eq]
  exact sound.older

theorem completionEdge?_act (sound : Sound reading)
    (acted : Reading.Acted domain line signature reading after parameters graph node) :
    after.graph.completionEdge? reading.nextId = some reading.completion := by
  rw [PlanGraph.completionEdge?, sound.node?_act acted, Option.bind_some, acted.output_eq]
  rfl

/-- Requirements add no action edge to the inputs, so the parents remain the only ones. -/
theorem actionInputs_act (sound : Sound reading)
    (acted : Reading.Acted domain line signature reading after parameters graph node) :
    after.graph.actionInputs node =
      (reading.parents.foldl Node.addInput
        (Reading.freshNode reading.nextId signature parameters)).inputEdges := by
  obtain ⟨added, inputs, conditions⟩ := acted.requires.inputEdges_eq
  have producers : after.graph.producers? = reading.outfitted.producers? := by
    rw [acted.after_eq]
    exact acted.requires.producers?_eq
  have none : added.filter (fun name => (reading.outfitted.producers? name).isSome) = [] := by
    rw [List.filter_eq_nil_iff]
    intro name member
    simp [conditions name member]
  have all : (reading.draft signature parameters).inputEdges.filter
      (fun name => (reading.outfitted.producers? name).isSome) =
        (reading.draft signature parameters).inputEdges := by
    rw [List.filter_eq_self]
    intro name member
    rcases mem_inputEdges_foldl_addInput.mp member with listed | parent
    · cases listed
    · obtain ⟨sources, action, -⟩ := sound.liveParents parent
      rw [Reading.producers?_outfitted]
      split
      · rfl
      · rw [action]
        rfl
  rw [PlanGraph.actionInputs, producers, inputs, List.filter_append, none, all, List.append_nil]
  rfl

theorem nameFor_outcomeEdge_act (sound : Sound reading)
    (acted : Reading.Acted domain line signature reading after parameters graph node)
    (value : Bool) (fact : String) :
    (reading.resolution domain signature parameters).graph.nameFor
      (Reading.outcomeEdge value fact) .condition = Reading.outcomeEdge value fact := by
  have producers := (reading.outfitted.requires_resolve domain
    (reading.draft signature parameters)).producers?_eq
  have completed := (sound.completed_act acted.id_eq acted.output_eq).congr producers
  exact completed.nameFor_outcomeEdge value fact

theorem node_eq_act (sound : Sound reading)
    (acted : Reading.Acted domain line signature reading after parameters graph node) :
    node = reading.gating.edge?.elim (reading.resolution domain signature parameters).node
      (reading.resolution domain signature parameters).node.addInput := by
  have kept := sound.nameFor_outcomeEdge_act acted
  have gates := acted.gates
  generalize reading.gating = gating at gates
  cases gates with
  | free => rfl
  | missing => rfl
  | outcome _ => rw [PlanGraph.registerCondition, kept]; rfl

theorem gated_act (sound : Sound reading)
    (acted : Reading.Acted domain line signature reading after parameters graph node)
    (gated : reading.gated = true) {fact : String} {older : List String}
    (governed : reading.observations = fact :: older) :
    after.graph.Gated reading.nextId reading.outcome fact := by
  have same := sound.node_eq_act acted
  rw [Reading.gating_of_governed gated governed] at same
  refine ⟨node, sound.node?_act acted, ?_⟩
  rw [same]
  exact Node.mem_inputEdges_addInput.mpr (Or.inl rfl)

end Sound

end ContingentPlan
