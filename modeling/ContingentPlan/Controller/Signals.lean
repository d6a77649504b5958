import ContingentPlan.Graph.Basic
import ContingentPlan.Text.Identifier
import ContingentPlan.Text.Lowercase

/-!
Signals for the edges of a plan graph. Every edge gets an identifier of its own, which is neither a
reserved word nor the name of an interface signal or an action module.
-/

namespace ContingentPlan

def reservedWords : List String :=
  ["abort", "await", "call", "case", "constant", "do", "each", "else", "elsif", "emit", "end",
   "every", "exec", "exit", "function", "halt", "handle", "if", "immediate", "in", "input",
   "inputoutput", "loop", "module", "not", "nothing", "or", "output", "pause", "present",
   "procedure", "relation", "repeat", "return", "run", "sensor", "signal", "suspend", "sustain",
   "task", "then", "timeout", "trap", "type", "upto", "var", "watching", "weak", "when", "with",
   "and", "copymodule", "positive", "pre", "finalize", "abstract", "tick"]

def PlanGraph.interfaceNames (graph : PlanGraph) : List String :=
  ["SOURCE", "SINK"] ++
    graph.nodes.flatMap fun node => [node.dispatchSignal, node.completeSignal, node.moduleName]

def signalBase (edge : String) : String :=
  let base := Text.identifier edge
  if Text.lowercase base ∈ reservedWords then base ++ "_sig" else base

def signalCandidate (base : String) : Nat → String
  | 0 => base
  | attempt + 1 => s!"{base}_{attempt + 1}"

def freshSignal (used : List String) (base : String) : String :=
  firstAdmissible (fun candidate => !used.contains candidate) (signalCandidate base) used.length 0

def assignSignals (used : List String) : List String → List (String × String)
  | [] => []
  | edge :: edges =>
      let signal := freshSignal used (signalBase edge)
      (edge, signal) :: assignSignals (signal :: used) edges

/-- The signal of an edge; a name that is no edge stands as its identifier. -/
def signalFor (signals : List (String × String)) (edge : String) : String :=
  (signals.lookup edge).getD (Text.identifier edge)

namespace PlanGraph

def signals (graph : PlanGraph) : List (String × String) :=
  assignSignals graph.interfaceNames graph.edges.names

def signal (graph : PlanGraph) (edge : String) : String := signalFor graph.signals edge

end PlanGraph

end ContingentPlan
