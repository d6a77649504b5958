/-!
The edges of a plan graph. An action edge marks the completion of the node it leaves; a condition
edge carries knowledge from the environment. No node is listed twice among the sinks that are added.
-/

namespace ContingentPlan

inductive EdgeKind
  | action
  | condition
deriving DecidableEq, Repr

inductive Edge
  | action (name : String) (sources sinks : List Nat) (active : Bool)
  | condition (name : String) (sinks : List Nat) (active : Bool)
deriving DecidableEq, Repr

namespace Edge

def name : Edge → String
  | .action name .. => name
  | .condition name .. => name

def kind : Edge → EdgeKind
  | .action .. => .action
  | .condition .. => .condition

def sources : Edge → List Nat
  | .action _ sources .. => sources
  | .condition .. => []

def sinks : Edge → List Nat
  | .action _ _ sinks _ => sinks
  | .condition _ sinks _ => sinks

def active : Edge → Bool
  | .action _ _ _ active => active
  | .condition _ _ active => active

def extendSinks (sinks : List Nat) (node : Nat) : List Nat :=
  if node ∈ sinks then sinks else sinks ++ [node]

def addSink (node : Nat) : Edge → Edge
  | .action name sources sinks active => .action name sources (extendSinks sinks node) active
  | .condition name sinks active => .condition name (extendSinks sinks node) active

end Edge

end ContingentPlan
