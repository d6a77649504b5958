import ContingentPlan.Configuration
import ContingentPlan.Table
import ContingentPlan.Text.Digits
import ContingentPlan.Text.Identifier

/-!
The options of the command line, and how they stand over the settings of a configuration.
-/

namespace ContingentPlan.CommandLine

inductive Setting
  | configuration
  | domain
  | plan
  | output
  | freeActionId
  | exportPath
deriving DecidableEq, Repr

def Setting.longName : Setting → OsText
  | .configuration => "config"
  | .domain => "domain"
  | .plan => "plan"
  | .output => "output"
  | .freeActionId => "free-action-id"
  | .exportPath => "export"

def environmentName? : Setting → Option OsText
  | .configuration => some "PLANSTRL_CONFIG"
  | .domain => some "PLANSTRL_DOMAIN"
  | .output => some "PLANSTRL_STRL_FILE"
  | _ => none

def number? (value : String) : Option Nat :=
  let digits := match value.toList with
    | '+' :: digits => digits
    | digits => digits
  if digits.isEmpty || !digits.all Text.isDigit then none
  else if Text.valueInBase 10 digits < Nat.pow 2 64 then some (Text.valueInBase 10 digits)
  else none

def isAdmissible : Setting → OsText → Bool
  | .freeActionId, value => (value.text?.bind number?).isSome
  | _, value => !value.bytes.isEmpty

structure Options where
  configuration : Option OsText
  domain : OsText
  plan : Option OsText
  output : Option OsText
  freeActionId : Option Nat
  exportPath : Option OsText
  printPlan : Bool
deriving DecidableEq, Repr

/-- The file name becomes a text, whatever its bytes are. -/
def Options.override (options : Options) (configuration : Configuration) : Configuration where
  dataPath := match options.plan with
    | some plan => (Path.parent? plan).getD ""
    | none => configuration.dataPath
  planFile := match options.plan with
    | some plan => ((Path.fileName? plan).map OsText.lossy).getD ""
    | none => configuration.planFile
  programPath := options.output.getD configuration.programPath
  freeActionId := options.freeActionId.getD configuration.freeActionId
  exportPath := options.exportPath.or configuration.exportPath

inductive Stop
  | malformed
  | answered (text : String)
deriving DecidableEq, Repr

end ContingentPlan.CommandLine
