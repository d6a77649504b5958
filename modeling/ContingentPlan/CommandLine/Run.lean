import ContingentPlan.CommandLine.Options
import ContingentPlan.Controller.Program
import ContingentPlan.Document.Domain
import ContingentPlan.Document.Plan
import ContingentPlan.Session

/-!
One run of the command line. All reading comes before all writing: the configuration, the domain
tables and the plan are read, and only then the controller and the export are written, in this
order, until a write fails.
-/

namespace ContingentPlan.CommandLine

structure Libraries where
  json : Codec
  toml : Codec
  arguments : Table OsText OsText → List OsText → Except Stop Options

inductive Stage
  | configuration
  | domain
  | plan
  | program
  | exported
deriving DecidableEq, Repr

structure Failure where
  activity : String
  cause : PlanFault
deriving DecidableEq, Repr

structure Output where
  stage : Stage
  path : OsText
  content : Except PlanFault String

structure Work where
  text : String
  outputs : List Output

def exportText (json : Codec) (graph : PlanGraph) : Except PlanFault String :=
  (json.pretty (Export.ofGraph graph).toDocument).mapError .unwritable

def workOf (json : Codec) (printPlan : Bool) (configuration : Configuration) (graph : PlanGraph) :
    Work where
  text := if printPlan then graph.summary else ""
  outputs :=
    { stage := .program, path := configuration.programPath, content := .ok graph.program }
      :: (configuration.exportPath.map fun path =>
        { stage := .exported, path, content := exportText json graph : Output }).toList

section Reading

variable {m : Type → Type} [Monad m] (libraries : Libraries)
  (read : Stage → OsText → m (Except FileFault String))

def load {α : Type} (activity : String) (stage : Stage) (path : OsText)
    (make : String → Except PlanFault α) : ExceptT Failure m α := do
  match ← read stage path with
  | .error fault => throw { activity, cause := .file path fault }
  | .ok text =>
      match make text with
      | .error cause => throw { activity, cause }
      | .ok value => return value

def effectiveConfiguration (options : Options) : ExceptT Failure m Configuration := do
  match options.configuration with
  | none => return options.override {}
  | some path =>
      return options.override (← load read s!"loading configuration {path}" .configuration path
        (Configuration.ofText libraries.toml path))

def prepare (options : Options) : ExceptT Failure m Work := do
  let configuration ← effectiveConfiguration libraries read options
  let domain ← load read s!"loading domain tables {options.domain}" .domain options.domain
    (Domain.ofText libraries.json libraries.toml options.domain)
  let path := configuration.planPath
  let plan ← load read s!"parsing plan {path}" .plan path fun trace =>
    Plan.ofTrace domain trace configuration.freeActionId
  return workOf libraries.json options.printPlan configuration plan.graph

end Reading

def perform (systems : Stage → FileTree.System) (files : FileTree) :
    List Output → FileTree × Option Failure
  | [] => (files, none)
  | output :: outputs =>
      let activity := s!"writing {output.path}"
      match output.content with
      | .error cause => (files, some { activity, cause })
      | .ok content =>
          match files.writeAtomically output.path content.toUTF8 (systems output.stage) with
          | (files, some cause) => (files, some { activity, cause })
          | (files, none) => perform systems files outputs

inductive Outcome
  | refused
  | answered (text : String)
  | ended (text : String) (failure : Option Failure)
deriving DecidableEq, Repr

def reader (systems : Stage → FileTree.System) (files : FileTree) (stage : Stage) (path : OsText) :
    Id (Except FileFault String) := files.read path (systems stage)

/-- A run on a tree of files; the system may be another one at each stage. -/
def run (libraries : Libraries) (systems : Stage → FileTree.System) (files : FileTree)
    (environment : Table OsText OsText) (words : List OsText) : Outcome × FileTree :=
  match libraries.arguments environment words with
  | .error .malformed => (.refused, files)
  | .error (.answered text) => (.answered text, files)
  | .ok options =>
      match Id.run (prepare libraries (reader systems files) options).run with
      | .error failure => (.ended "" (some failure), files)
      | .ok work =>
          let (files, failure) := perform systems files work.outputs
          (.ended work.text failure, files)

end ContingentPlan.CommandLine
