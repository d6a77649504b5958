import ContingentPlan.Configuration
import ContingentPlan.Reading

/-!
A session holds the graph of the plan that it read last. A call gives up that graph before it reads a
trace, and takes over the new one only when all of the trace is read; a trace file is read before either.
-/

namespace ContingentPlan

structure Report where
  planFound : Bool
  nodeCount : Nat
  nextId : Nat
  warnings : List Warning
deriving DecidableEq

def Report.empty (freeId : Nat) : Report where
  planFound := false
  nodeCount := 0
  nextId := freeId
  warnings := []

def Plan.report (plan : Plan) : Report where
  planFound := plan.found
  nodeCount := plan.graph.nodes.length
  nextId := plan.nextId
  warnings := plan.warnings

structure Session where
  graph : PlanGraph := ∅
deriving DecidableEq

namespace Session

def reset (session : Session) : Session := { session with graph := session.graph.reset }

def prepare (session : Session) (domain : Domain) (trace : String) (freeId : Nat) :
    Except PlanFault Report × Session :=
  let session := session.reset
  let report := Report.empty freeId
  match planBlock? trace with
  | none => (.ok report, session)
  | some block =>
      let report := { report with planFound := true }
      match block.foldlM (Reading.step domain) { nextId := freeId } with
      | .error fault => (.error fault, session)
      | .ok reading =>
          let session := { session with graph := reading.graph }
          let report := { report with
            nodeCount := session.graph.nodes.length
            nextId := reading.nextId
            warnings := reading.warnings }
          (.ok report, session)

def prepareFile (session : Session) (files : FileTree) (domain : Domain) (path : OsText)
    (freeId : Nat) (system : FileTree.System := {}) : Except PlanFault Report × Session :=
  match files.read path system with
  | .ok trace => session.prepare domain trace freeId
  | .error fault => (.error (.file path fault), session)

def prepareConfigured (session : Session) (files : FileTree) (domain : Domain)
    (configuration : Configuration) (system : FileTree.System := {}) :
    Except PlanFault Report × Session :=
  session.prepareFile files domain configuration.planPath configuration.freeActionId system

end Session

end ContingentPlan
