import ContingentPlan.Codec
import ContingentPlan.FileTree

/-!
The configuration of a run: where the trace lies, where the controller and the export go,
and the first free action id. Settings that a configuration text leaves out have default values.
-/

namespace ContingentPlan

structure Configuration where
  dataPath : OsText := "common/"
  planFile : String := "plan.pddl"
  programPath : OsText := "common/plan.strl"
  freeActionId : Nat := 0
  exportPath : Option OsText := none
deriving DecidableEq, Repr

namespace Configuration

def planPath (configuration : Configuration) : OsText :=
  Path.join configuration.dataPath configuration.planFile

def optionalText? : Option OsText → Option Document
  | none => some .null
  | some path => path.text?.map Document.text

/-- Only paths that are text can be written. -/
def toDocument? (configuration : Configuration) : Option Document := do
  let dataPath ← configuration.dataPath.text?
  let programPath ← configuration.programPath.text?
  let exportPath ← optionalText? configuration.exportPath
  return .fields
    [("data_path", .text dataPath), ("plan_file", .text configuration.planFile),
     ("strl_file_path", .text programPath), ("free_action_id", .ofId configuration.freeActionId),
     ("export_path", exportPath)]

def setting? {α : Type} (read : Document → Option α) (default : α) : Option Document → Option α
  | none => some default
  | some document => read document

def path? (document : Document) : Option OsText := document.text?.map OsText.ofText

def optionalPath? : Document → Option (Option OsText)
  | .null => some none
  | document => (path? document).map some

def ofDocument? (document : Document) : Option Configuration := do
  let default : Configuration := {}
  match ← document.fields?
    ["data_path", "plan_file", "strl_file_path", "free_action_id", "export_path"] with
  | [dataPath, planFile, programPath, freeActionId, exportPath] =>
      return {
        dataPath := ← setting? path? default.dataPath dataPath
        planFile := ← setting? Document.text? default.planFile planFile
        programPath := ← setting? path? default.programPath programPath
        freeActionId := ← setting? Document.id? default.freeActionId freeActionId
        exportPath := ← setting? optionalPath? default.exportPath exportPath }
  | _ => none

def ofText (toml : Codec) (path : OsText) (text : String) : Except PlanFault Configuration :=
  match toml.readAs ofDocument? text with
  | .ok configuration => .ok configuration
  | .error reason => .error (.malformedConfiguration path reason)

def toText (toml : Codec) (configuration : Configuration) : Except String String :=
  match configuration.toDocument? with
  | some document => toml.pretty document
  | none => .error "path contains invalid UTF-8 characters"

/-- Writes the text of a configuration to a file. There has to be one before the file is touched. -/
def store (toml : Codec) (configuration : Configuration) (tree : FileTree) (path : OsText)
    (system : FileTree.System := {}) : FileTree × Option PlanFault :=
  match configuration.toText toml with
  | .error reason => (tree, some (.malformedConfiguration path reason))
  | .ok text =>
      let (tree, fault) := tree.overwrite path text.toUTF8 system
      (tree, fault.map (.file path))

end Configuration

end ContingentPlan
