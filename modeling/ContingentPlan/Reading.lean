import ContingentPlan.Requirement
import ContingentPlan.Trace.Block
import ContingentPlan.Trace.Token

/-!
Reading a plan block line by line. The stack of continuations holds the action edges that wait for a
successor: an action consumes the top one and leaves its own, a branch point copies it, a pop brings
up the one below, and after a shed the next action consumes two. The outcome of an observation gates
the first action behind it.
-/

namespace ContingentPlan

structure Reading where
  /-- Live continuation edges; the first one feeds the next action. -/
  continuations : List String := []
  /-- Observed facts that still govern branches, the latest first. -/
  observations : List String := []
  gated : Bool := false
  outcome : Bool := true
  branching : Bool := false
  merging : Bool := false
  nextId : Nat
  graph : PlanGraph := ∅
  warnings : List Warning := []

namespace Reading

def warn (reading : Reading) (line : Nat) (anomaly : Anomaly) : Reading :=
  { reading with warnings := reading.warnings ++ [{ line, anomaly }] }

/-- The first branch token behind an action or an earlier one is a branch point; any other one
only allows the next to be. -/
def ramificate (reading : Reading) (line : Nat) : Reading :=
  if reading.branching then
    match reading.continuations with
    | [] => reading.warn line (.emptyStack "ramificate")
    | top :: rest => { reading with continuations := top :: top :: rest }
  else { reading with branching := true }

def shed (reading : Reading) : Reading :=
  { reading with branching := false, merging := true, observations := [], gated := false }

def pop (reading : Reading) (line : Nat) (token : String) : Reading :=
  match reading.continuations with
  | top :: below :: rest =>
      { reading with
        continuations := below :: top :: rest, branching := false, gated := true, outcome := false }
  | _ => reading.warn line (.shallowStack token)

def attachParent (reading : Reading) (node : Node) : Reading × Node :=
  match reading.continuations with
  | [] => (reading, node)
  | parent :: rest =>
      ({ reading with continuations := rest, graph := reading.graph.connect parent node.id },
        node.addInput parent)

def attachParents (reading : Reading) (node : Node) : Reading × Node :=
  let (reading, node) := reading.attachParent node
  if reading.merging then
    let (reading, node) := reading.attachParent node
    ({ reading with merging := false }, node)
  else (reading, node)

def leaveEdge (reading : Reading) (node : Node) : Reading × Node :=
  let (edge, graph) := reading.graph.addActionEdge s!"e{node.id}" node.id
  ({ reading with continuations := edge :: reading.continuations, graph },
    { node with output := node.output ++ [edge] })

def outcomeWord (outcome : Bool) : String := if outcome then "true" else "false"

def outcomeEdge (outcome : Bool) (fact : String) : String :=
  s!"observe-edge-{outcomeWord outcome}-{fact}"

def gate (domain : Domain) (line : Nat) (reading : Reading) (node : Node) :
    Except PlanFault (Reading × Node) :=
  if reading.gated then
    match reading.observations with
    | [] => .ok ({ reading.warn line (.missingObservation node.name) with gated := false }, node)
    | fact :: _ =>
        match observationCondition domain fact reading.outcome with
        | .error fault => .error fault
        | .ok condition =>
            let (edge, graph) :=
              reading.graph.registerCondition (outcomeEdge reading.outcome fact) node.id condition
            .ok ({ reading with graph, gated := false }, node.addInput edge)
  else .ok (reading, node)

def observe (reading : Reading) (signature : Signature) : Reading :=
  match signature.observedFact? with
  | none => reading
  | some fact =>
      { reading with observations := fact :: reading.observations, gated := true, outcome := true }

def parameters (domain : Domain) (signature : Signature) : Except PlanFault (List Binding) :=
  match domain.operatorLabels signature.operator with
  | .error fault => .error fault
  | .ok labels =>
      if labels.length < signature.arguments.length then
        .error (.tooManyArguments signature.operator labels.length signature.arguments.length)
      else .ok (labels.zipWith Binding.mk signature.arguments)

def act (domain : Domain) (line : Nat) (signature : Signature) (reading : Reading) :
    Except PlanFault Reading := do
  let parameters ← parameters domain signature
  let id := reading.nextId
  let node : Node :=
    { id, name := signature.text
      dispatch := { actionId := id, name := signature.operator, parameters } }
  let (reading, node) := { reading with nextId := id + 1 }.attachParents node
  let (reading, node) := reading.leaveEdge node
  let resolution := reading.graph.resolve domain node
  if let some fault := resolution.fault then throw fault
  let (reading, node) ←
    { reading with graph := resolution.graph }.gate domain line resolution.node
  let reading := reading.observe signature
  return { reading with graph := reading.graph.addNode node, branching := true }

def step (domain : Domain) (reading : Reading) (line : TraceLine) : Except PlanFault Reading :=
  let token := tokenText? line.text
  match token.bind Token.ofText? with
  | none => .ok (reading.warn line.number (.malformedLine line.text))
  | some .ramificate => .ok (reading.ramificate line.number)
  | some .shed => .ok reading.shed
  | some .pop => .ok (reading.pop line.number (token.getD ""))
  | some .assume => .ok { reading with branching := false }
  | some (.action signature) => reading.act domain line.number signature

end Reading

structure Plan where
  found : Bool
  graph : PlanGraph := ∅
  nextId : Nat
  warnings : List Warning := []

def Plan.ofTrace (domain : Domain) (trace : String) (freeId : Nat) : Except PlanFault Plan :=
  match planBlock? trace with
  | none => .ok { found := false, nextId := freeId }
  | some block =>
      (block.foldlM (Reading.step domain) { nextId := freeId }).map fun reading =>
        { found := true
          graph := reading.graph
          nextId := reading.nextId
          warnings := reading.warnings }

end ContingentPlan
