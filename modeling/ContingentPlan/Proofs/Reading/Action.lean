import ContingentPlan.Proofs.Graph.Parents
import ContingentPlan.Proofs.Requirement

/-!
What an action line does to a reading. Its node consumes the top continuations, leaves its completion
edge in their place and then collects its requirements, the outcome that gates it last.
-/

namespace ContingentPlan

theorem except_bind_eq_ok {ε α β : Type} {value : Except ε α} {next : α → Except ε β} {result : β} :
    value >>= next = .ok result ↔ ∃ middle, value = .ok middle ∧ next middle = .ok result := by
  cases value <;> simp [bind, Except.bind]

theorem except_bind_eq_error_iff {ε α β : Type} {value : Except ε α} {next : α → Except ε β}
    {fault : ε} :
    value >>= next = .error fault ↔
      value = .error fault ∨ ∃ middle, value = .ok middle ∧ next middle = .error fault := by
  cases value <;> simp [bind, Except.bind]

theorem mem_toOption {ε α : Type} {value : Except ε α} {result : α}
    (given : result ∈ value.toOption) : value = .ok result := by
  cases value with
  | error fault => cases given
  | ok other =>
      cases given
      rfl

namespace Reading

def freshNode (id : Nat) (signature : Signature) (parameters : List Binding) : Node where
  id
  name := signature.text
  dispatch := { actionId := id, name := signature.operator, parameters }

/-- The number of continuations that the next action consumes, if there are as many. -/
def demand (reading : Reading) : Nat := if reading.merging then 2 else 1

def parents (reading : Reading) : List String := reading.continuations.take reading.demand

theorem attachParents_eq (reading : Reading) (node : Node) :
    reading.attachParents node =
      ({ reading with
          continuations := reading.continuations.drop reading.demand
          merging := false
          graph := reading.parents.foldl (·.connect · node.id) reading.graph },
        reading.parents.foldl Node.addInput node) := by
  obtain ⟨continuations, observations, gated, outcome, branching, merging, nextId, graph,
    warnings⟩ := reading
  cases merging with
  | false =>
      cases continuations with
      | nil => simp [attachParents, attachParent, parents, demand]
      | cons top rest => simp [attachParents, attachParent, parents, demand]
  | true =>
      match continuations with
      | [] => simp [attachParents, attachParent, parents, demand]
      | [top] => simp [attachParents, attachParent, parents, demand]
      | top :: below :: rest => simp [attachParents, attachParent, parents, demand]

def connected (reading : Reading) : PlanGraph :=
  reading.parents.foldl (·.connect · reading.nextId) reading.graph

def completion (reading : Reading) : String :=
  reading.connected.nameFor s!"e{reading.nextId}" .action

def outfitted (reading : Reading) : PlanGraph :=
  (reading.connected.addActionEdge s!"e{reading.nextId}" reading.nextId).2

def draft (reading : Reading) (signature : Signature) (parameters : List Binding) : Node :=
  { reading.parents.foldl Node.addInput (freshNode reading.nextId signature parameters) with
    output := [reading.completion] }

theorem foldl_addInput_kept (names : List String) (node : Node) :
    (names.foldl Node.addInput node).id = node.id ∧
      (names.foldl Node.addInput node).name = node.name ∧
      (names.foldl Node.addInput node).output = node.output ∧
      (names.foldl Node.addInput node).dispatch = node.dispatch := by
  induction names generalizing node with
  | nil => exact ⟨rfl, rfl, rfl, rfl⟩
  | cons name names ih => simpa using ih (node.addInput name)

theorem id_draft (reading : Reading) (signature : Signature) (parameters : List Binding) :
    (reading.draft signature parameters).id = reading.nextId :=
  (foldl_addInput_kept reading.parents (freshNode reading.nextId signature parameters)).1

theorem leaveEdge_attachParents_eq (reading : Reading) (signature : Signature)
    (parameters : List Binding) :
    let attached := { reading with nextId := reading.nextId + 1 }.attachParents
      (freshNode reading.nextId signature parameters)
    attached.1.leaveEdge attached.2 =
      ({ reading with
          continuations := reading.completion :: reading.continuations.drop reading.demand
          merging := false
          nextId := reading.nextId + 1
          graph := reading.outfitted },
        reading.draft signature parameters) := by
  have kept := foldl_addInput_kept reading.parents (freshNode reading.nextId signature parameters)
  have id : (reading.parents.foldl Node.addInput
      (freshNode reading.nextId signature parameters)).id = reading.nextId := kept.1
  have output : (reading.parents.foldl Node.addInput
      (freshNode reading.nextId signature parameters)).output = [] := kept.2.2.1
  have same : { reading with nextId := reading.nextId + 1 }.parents = reading.parents := rfl
  simp only [attachParents_eq, leaveEdge, draft, same, id, output]
  rfl

def missingObservations (reading : Reading) (line : Nat) (action : String) : List Warning :=
  if reading.gated && reading.observations.isEmpty then
    [{ line, anomaly := .missingObservation action }]
  else []

/-- Why an action waits for the outcome of an observation: it is not behind one, no observation
governs it any more, or a fact was observed. -/
inductive Gating
  | free
  | missing
  | outcome (value : Bool) (fact : String)
deriving DecidableEq

def Gating.edge? : Gating → Option String
  | free => none
  | missing => none
  | outcome value fact => some (outcomeEdge value fact)

def gating (reading : Reading) : Gating :=
  if reading.gated then
    match reading.observations with
    | [] => .missing
    | fact :: _ => .outcome reading.outcome fact
  else .free

theorem gating_of_governed {reading : Reading} (gated : reading.gated = true) {fact : String}
    {older : List String} (governed : reading.observations = fact :: older) :
    reading.gating = .outcome reading.outcome fact := by
  simp [gating, gated, governed]

inductive Gates (domain : Domain) (graph : PlanGraph) (node : Node) :
    Gating → PlanGraph → Node → Prop
  | free : Gates domain graph node .free graph node
  | missing : Gates domain graph node .missing graph node
  | outcome {value : Bool} {fact : String} {condition : Condition} :
      observationCondition domain fact value = .ok condition →
      Gates domain graph node (.outcome value fact)
        (graph.registerCondition (outcomeEdge value fact) node.id condition).2
        (node.addInput (graph.registerCondition (outcomeEdge value fact) node.id condition).1)

theorem Gates.requires {domain : Domain} {graph after : PlanGraph} {node final : Node}
    {gating : Gating} (gates : Gates domain graph node gating after final) :
    Requires domain graph node after final := by
  cases gates with
  | free => exact .refl
  | missing => exact .refl
  | outcome observed => exact Requires.refl.step (.observation observed)

theorem gate_eq_ok {domain : Domain} {line : Nat} {reading : Reading} {node : Node}
    {result : Reading × Node} (opened : reading.gate domain line node = .ok result) :
    ∃ after, Gates domain reading.graph node reading.gating after result.2 ∧
      result.1 = { reading with
        gated := false
        graph := after
        warnings := reading.warnings ++ reading.missingObservations line node.name } := by
  obtain ⟨continuations, observations, gated, outcome, branching, merging, nextId, graph,
    warnings⟩ := reading
  cases gated with
  | false =>
      simp only [gate, Bool.false_eq_true, if_false, Except.ok.injEq] at opened
      subst opened
      exact ⟨graph, .free, by simp [missingObservations]⟩
  | true =>
      cases observations with
      | nil =>
          simp only [gate, if_true, Except.ok.injEq] at opened
          subst opened
          exact ⟨graph, .missing, by simp [missingObservations, warn]⟩
      | cons fact observations =>
          cases observed : observationCondition domain fact outcome with
          | error fault => simp [gate, observed] at opened
          | ok condition =>
              simp only [gate, if_true, observed, Except.ok.injEq] at opened
              subst opened
              exact ⟨_, .outcome observed, by simp [missingObservations]⟩

theorem observe_eq (reading : Reading) (signature : Signature) :
    reading.observe signature =
      { reading with
        observations := signature.observedFact?.toList ++ reading.observations
        gated := signature.observedFact?.isSome || reading.gated
        outcome := signature.observedFact?.isSome || reading.outcome } := by
  cases observed : signature.observedFact? <;> simp [observe, observed]

def resolution (reading : Reading) (domain : Domain) (signature : Signature)
    (parameters : List Binding) : Resolution :=
  reading.outfitted.resolve domain (reading.draft signature parameters)

/-- All that an action line does: `node` is its finished node, `graph` the graph that the node is
stored in. -/
structure Acted (domain : Domain) (line : Nat) (signature : Signature) (reading after : Reading)
    (parameters : List Binding) (graph : PlanGraph) (node : Node) : Prop where
  declared : Reading.parameters domain signature = .ok parameters
  resolved : (reading.resolution domain signature parameters).fault = none
  gates : Gates domain (reading.resolution domain signature parameters).graph
    (reading.resolution domain signature parameters).node reading.gating graph node
  after_eq : after =
    { continuations := reading.completion :: reading.continuations.drop reading.demand
      observations := signature.observedFact?.toList ++ reading.observations
      gated := signature.observedFact?.isSome
      outcome := signature.observedFact?.isSome || reading.outcome
      branching := true
      merging := false
      nextId := reading.nextId + 1
      graph := graph.addNode node
      warnings := reading.warnings ++ reading.missingObservations line signature.text }

theorem acted_of_act {domain : Domain} {line : Nat} {signature : Signature}
    {reading after : Reading} (acted : reading.act domain line signature = .ok after) :
    ∃ parameters graph node, Acted domain line signature reading after parameters graph node := by
  unfold act at acted
  rw [except_bind_eq_ok] at acted
  obtain ⟨parameters, declared, acted⟩ := acted
  have outfitted := leaveEdge_attachParents_eq reading signature parameters
  simp only [freshNode] at outfitted
  simp only [outfitted] at acted
  have name : (reading.resolution domain signature parameters).node.name = signature.text := by
    rw [resolution, (reading.outfitted.requires_resolve domain _).node_kept.2.1]
    exact (foldl_addInput_kept _ _).2.1
  cases faulty : (reading.resolution domain signature parameters).fault with
  | some fault =>
      unfold resolution at faulty
      simp [faulty, throw, throwThe, MonadExceptOf.throw, bind, Except.bind] at acted
  | none =>
      have resolved := faulty
      unfold resolution at faulty
      simp only [faulty] at acted
      rw [except_bind_eq_ok] at acted
      obtain ⟨⟨opened, node⟩, gate, acted⟩ := acted
      obtain ⟨graph, gates, opened_eq⟩ := gate_eq_ok gate
      refine ⟨parameters, graph, node, declared, resolved, gates, ?_⟩
      simp only [pure, Except.pure, Except.ok.injEq] at acted
      dsimp only at opened_eq
      unfold resolution at name
      rw [← acted, observe_eq, opened_eq, name]
      simp [missingObservations]

theorem producers?_connected (reading : Reading) :
    reading.connected.producers? = reading.graph.producers? :=
  producers?_foldl_connect

theorem producers?_outfitted (reading : Reading) (name : String) :
    reading.outfitted.producers? name =
      if name = reading.completion then some [reading.nextId]
      else reading.graph.producers? name := by
  rw [outfitted, PlanGraph.producers?_addActionEdge, producers?_connected]
  rfl

namespace Acted

variable {domain : Domain} {line : Nat} {signature : Signature} {reading after : Reading}
  {parameters : List Binding} {graph : PlanGraph} {node : Node}

theorem requires (acted : Acted domain line signature reading after parameters graph node) :
    Requires domain reading.outfitted (reading.draft signature parameters) graph node :=
  (reading.outfitted.requires_resolve domain _).trans acted.gates.requires

theorem id_eq (acted : Acted domain line signature reading after parameters graph node) :
    node.id = reading.nextId := by
  rw [acted.requires.node_kept.1]
  exact reading.id_draft signature parameters

theorem name_eq (acted : Acted domain line signature reading after parameters graph node) :
    node.name = signature.text := by
  rw [acted.requires.node_kept.2.1]
  exact (foldl_addInput_kept _ _).2.1

theorem output_eq (acted : Acted domain line signature reading after parameters graph node) :
    node.output = [reading.completion] :=
  acted.requires.node_kept.2.2.1

theorem dispatch_eq (acted : Acted domain line signature reading after parameters graph node) :
    node.dispatch = { actionId := reading.nextId, name := signature.operator, parameters } := by
  rw [acted.requires.node_kept.2.2.2]
  exact (foldl_addInput_kept _ _).2.2.2

theorem nodes_eq (acted : Acted domain line signature reading after parameters graph node) :
    graph.nodes = reading.graph.nodes := by
  rw [acted.requires.nodes_eq]
  exact nodes_foldl_connect

theorem nodes_after (acted : Acted domain line signature reading after parameters graph node) :
    after.graph.nodes = reading.graph.nodes ++ [node] := by
  rw [acted.after_eq, PlanGraph.addNode, acted.nodes_eq]

theorem nextId_after (acted : Acted domain line signature reading after parameters graph node) :
    after.nextId = reading.nextId + 1 := by
  rw [acted.after_eq]

theorem tail_after (acted : Acted domain line signature reading after parameters graph node)
    (merging : reading.merging = false) :
    after.continuations.tail = reading.continuations.tail := by
  rw [acted.after_eq]
  simp [demand, merging]

end Acted

end Reading

end ContingentPlan
