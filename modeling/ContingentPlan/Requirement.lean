import ContingentPlan.Domain
import ContingentPlan.Graph.Basic
import ContingentPlan.Text.Blank
import ContingentPlan.Text.Opening

/-!
The knowledge that a node requires. The precondition tuples of its operator are grounded against its
parameters, in order, and each requirement that is not stated before becomes a condition edge into
the node. Edges registered before a tuple fails stay in the graph.
-/

namespace ContingentPlan

structure Requirement where
  edge : String
  condition : Condition
deriving DecidableEq, Repr

/-- The attribute that a tuple is about. Axioms mark an attribute by a leading `r`, which is taken
off unless only the marked name is declared. -/
def unmarkedAttribute (domain : Domain) (name : String) : String :=
  if name = "resolve-axioms" then name
  else match Text.afterOpening? "r" name with
    | none => name
    | some rest => if domain.declares name && !domain.declares rest then name else rest

/-- The value of the last parameter whose label is the argument in any letter case. An argument
that is no label is a constant and stands for itself. -/
def groundArgument (parameters : List Binding) (argument : String) : String :=
  let label := Text.lowercase argument
  match parameters.reverse.find? (fun binding => Text.lowercase binding.key == label) with
  | some binding => binding.value
  | none => label

def bindLabels : List String → List String → List Binding
  | [], _ => []
  | label :: labels, [] => { key := label, value := "" } :: bindLabels labels []
  | label :: labels, value :: values => { key := label, value } :: bindLabels labels values

def groundTuple (domain : Domain) (parameters : List Binding) (head : String)
    (arguments : List String) : Except PlanFault Condition :=
  let raw := Text.lowercase head
  let name := unmarkedAttribute domain raw
  match domain.attributeLabels name with
  | .error fault => .error fault
  | .ok labels => .ok
      { kind := if domain.isFunction raw || domain.isFunction name then .function else .fact
        name
        negative := false
        values := bindLabels labels (arguments.map (groundArgument parameters)) }

def observationCondition (domain : Domain) (fact : String) (outcome : Bool) :
    Except PlanFault Condition :=
  let words := Text.words fact
  let name := words.headD ""
  match domain.attributeLabels name with
  | .error fault => .error fault
  | .ok labels => .ok
      { kind := .fact, name, negative := !outcome, values := bindLabels labels words.tail }

structure Resolution where
  node : Node
  graph : PlanGraph
  requirements : List Requirement := []
  fault : Option PlanFault := none

namespace Resolution

def require (resolution : Resolution) (condition : Condition) : Resolution :=
  if resolution.requirements.any (fun stated =>
      decide (stated.condition.SameRequirement condition)) then resolution
  else
    let (edge, graph) :=
      resolution.graph.registerCondition condition.signature resolution.node.id condition
    { resolution with
      node := resolution.node.addInput edge
      graph
      requirements := resolution.requirements ++ [{ edge, condition }] }

def addTuples (domain : Domain) (resolution : Resolution) : List ConditionTuple → Resolution
  | [] => resolution
  | [] :: tuples => addTuples domain resolution tuples
  | (head :: arguments) :: tuples =>
      match groundTuple domain resolution.node.dispatch.parameters head arguments with
      | .error fault => { resolution with fault := some fault }
      | .ok condition => addTuples domain (resolution.require condition) tuples

end Resolution

def PlanGraph.resolve (graph : PlanGraph) (domain : Domain) (node : Node) : Resolution :=
  match domain.preconditionTuples (Text.lowercase node.dispatch.name) with
  | .error fault => { node, graph, fault := some fault }
  | .ok tuples => Resolution.addTuples domain { node, graph } tuples

end ContingentPlan
