import ContingentPlan.Controller.Signals

/-!
Plan controllers in Esterel. The plan module declares one signal for every edge and runs the action
modules side by side; an action module awaits its inputs, dispatches its action, awaits completion
and emits its outputs.
-/

namespace ContingentPlan

structure ActionModule where
  name : String
  dispatch : String
  complete : String
  inputs : List String
  outputs : List String
deriving DecidableEq, Repr

structure Controller where
  signals : List String
  actions : List ActionModule
deriving DecidableEq, Repr

def Controller.ofGraph (graph : PlanGraph) : Controller :=
  let signals := graph.signals
  { signals := signals.map Prod.snd
    actions := graph.nodes.map fun node =>
      { name := node.moduleName
        dispatch := node.dispatchSignal
        complete := node.completeSignal
        inputs := node.inputEdges.map (signalFor signals)
        outputs := node.output.map (signalFor signals) } }

def commaSeparated (names : List String) : String := ", ".intercalate names

namespace ActionModule

def awaitStatement : List String → List String
  | [] => []
  | [input] => ["await " ++ input]
  | inputs => ["await [" ++ " or ".intercalate inputs ++ "]"]

def statements (action : ActionModule) : List String :=
  awaitStatement action.inputs ++ ["emit " ++ action.dispatch, "await " ++ action.complete]
    ++ action.outputs.map ("emit " ++ ·)

def render (action : ActionModule) : String :=
  "module " ++ action.name ++ ":\n"
    ++ "input " ++ commaSeparated (action.inputs ++ [action.complete]) ++ ";\n"
    ++ "output " ++ commaSeparated (action.outputs ++ [action.dispatch]) ++ ";\n\n"
    ++ ";\n".intercalate (action.statements.map ("  " ++ ·))
    ++ "\nend module\n\n"

end ActionModule

namespace Controller

def runStatement (margin : String) : List ActionModule → String
  | [] => margin ++ "nothing\n"
  | [action] => margin ++ "run " ++ action.name ++ "\n"
  | actions =>
      margin ++ "[\n"
        ++ (margin ++ "||\n").intercalate
          (actions.map fun action => margin ++ "  run " ++ action.name ++ "\n")
        ++ margin ++ "]\n"

def planBody (controller : Controller) : String :=
  if controller.signals.isEmpty then runStatement "  " controller.actions
  else
    "  signal " ++ commaSeparated controller.signals ++ " in\n"
      ++ runStatement "    " controller.actions ++ "  end signal\n"

def renderPlan (controller : Controller) : String :=
  "module plan:\n"
    ++ "input " ++ commaSeparated ("SOURCE" :: controller.actions.map ActionModule.complete) ++ ";\n"
    ++ "output " ++ commaSeparated ("SINK" :: controller.actions.map ActionModule.dispatch) ++ ";\n\n"
    ++ controller.planBody ++ "end module\n\n"

def render (controller : Controller) : String :=
  controller.renderPlan ++ String.join (controller.actions.map ActionModule.render)

end Controller

def PlanGraph.program (graph : PlanGraph) : String := (Controller.ofGraph graph).render

end ContingentPlan
