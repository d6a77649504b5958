import ContingentPlan.Catalog
import ContingentPlan.FreshName
import ContingentPlan.Graph.Edge
import ContingentPlan.Graph.Node

/-!
Plan graphs: nodes in the order of their ids, edges and the conditions behind condition edges in
the order of the edge names. An action edge and a condition edge never share a name: the later one
gets a suffix, and a request for the same name and kind is always answered alike.
-/

namespace ContingentPlan

structure PlanGraph where
  nodes : List Node := []
  edges : Catalog Edge := ∅
  conditions : Catalog Condition := ∅
deriving DecidableEq

namespace PlanGraph

instance : EmptyCollection PlanGraph := ⟨{}⟩

instance : Inhabited PlanGraph := ⟨∅⟩

def reset (graph : PlanGraph) : PlanGraph :=
  { graph with nodes := [], edges := graph.edges.clear, conditions := graph.conditions.clear }

def isEmpty (graph : PlanGraph) : Bool := graph.nodes.isEmpty && graph.edges.isEmpty

def node? (graph : PlanGraph) (id : Nat) : Option Node := graph.nodes.find? (·.id == id)

def nodeNamed? (graph : PlanGraph) (name : String) : Option Node :=
  graph.nodes.find? (·.name == name)

def edge? (graph : PlanGraph) (name : String) : Option Edge := graph.edges.find? name

def condition? (graph : PlanGraph) (edge : String) : Option Condition :=
  graph.conditions.find? edge

def addNode (graph : PlanGraph) (node : Node) : PlanGraph :=
  { graph with nodes := graph.nodes ++ [node] }

def kindSuffix : EdgeKind → String
  | .action => "action"
  | .condition => "condition"

def nameCandidate (name : String) (kind : EdgeKind) : Nat → String
  | 0 => name
  | 1 => s!"{name}-{kindSuffix kind}"
  | attempt + 2 => s!"{name}-{kindSuffix kind}-{attempt + 1}"

def admits (graph : PlanGraph) (kind : EdgeKind) (name : String) : Bool :=
  match graph.edge? name with
  | none => true
  | some edge => edge.kind == kind

def nameFor (graph : PlanGraph) (name : String) (kind : EdgeKind) : String :=
  firstAdmissible (graph.admits kind) (nameCandidate name kind) graph.edges.size 0

def addActionEdge (graph : PlanGraph) (name : String) (source : Nat) : String × PlanGraph :=
  let name := graph.nameFor name .action
  (name, { graph with edges := graph.edges.insert name (.action name [source] [] false) })

def connect (graph : PlanGraph) (edge : String) (sink : Nat) : PlanGraph :=
  { graph with edges := graph.edges.modify edge (·.addSink sink) }

/-- Registers a condition edge into a node and gives its final name. A name that is registered
already gains a consumer and keeps its first condition. -/
def registerCondition (graph : PlanGraph) (name : String) (sink : Nat) (condition : Condition) :
    String × PlanGraph :=
  let name := graph.nameFor name .condition
  (name,
    { graph with
      edges := (graph.edges.insertIfNew name (.condition name [] false)).modify name (·.addSink sink)
      conditions := graph.conditions.insertIfNew name condition })

def nodeSummary (node : Node) : String :=
  let parameters := " ".intercalate (node.dispatch.parameters.map fun binding =>
    s!"{binding.key}={binding.value}")
  s!"[{node.id}] {node.dispatch.name} ({parameters})\n"
    ++ s!"    in:  " ++ ", ".intercalate node.inputEdges ++ "\n"
    ++ s!"    out: " ++ ", ".intercalate node.output ++ "\n"

def summary (graph : PlanGraph) : String :=
  s!"plan: {graph.nodes.length} nodes, {graph.edges.size} edges\n"
    ++ String.join (graph.nodes.map nodeSummary)

end PlanGraph

end ContingentPlan
