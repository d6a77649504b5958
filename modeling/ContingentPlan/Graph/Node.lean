import ContingentPlan.Condition

/-!
The nodes of a plan graph. A node stands for one action occurrence; it waits on its input edges and
then marks its output edges. No edge is listed twice among the inputs.
-/

namespace ContingentPlan

structure Dispatch where
  actionId : Nat
  name : String
  duration : Float := 0.1
  dispatchTime : Float := 0.0
  parameters : List Binding
deriving DecidableEq

def Dispatch.parameter? (dispatch : Dispatch) (key : String) : Option String :=
  (dispatch.parameters.find? (·.key == key)).map Binding.value

structure Input where
  edge : String
  awaited : Bool := false
deriving DecidableEq, Repr

structure Node where
  id : Nat
  name : String
  input : List Input := []
  output : List String := []
  dispatch : Dispatch
deriving DecidableEq

namespace Node

def inputEdges (node : Node) : List String := node.input.map Input.edge

def hasInput (node : Node) (edge : String) : Bool := node.inputEdges.contains edge

def addInput (node : Node) (edge : String) : Node :=
  if node.hasInput edge then node else { node with input := node.input ++ [{ edge }] }

def dispatchSignal (node : Node) : String := s!"a{node.id}_dispatch"

def completeSignal (node : Node) : String := s!"a{node.id}_complete"

def moduleName (node : Node) : String := s!"action{node.id}"

end Node

end ContingentPlan
