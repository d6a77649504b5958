import ContingentPlan.CommandLine.Options

/-!
Reading the words of the command line. A setting takes a value, which stands in the same word or in the
next one; a flag takes none. Each of them may be given once, and the first word that is wrong or
asks for the version decides.
-/

namespace ContingentPlan.CommandLine

inductive Flag
  | printPlan
  | verbose
deriving DecidableEq, Repr

inductive Switch
  | setting (setting : Setting)
  | flag (flag : Flag)
  | version
deriving DecidableEq, Repr

def longName : Switch → OsText
  | .setting setting => setting.longName
  | .flag .printPlan => "print-plan"
  | .flag .verbose => "verbose"
  | .version => "version"

def shortName? : Switch → Option Char
  | .setting .configuration => some 'c'
  | .setting .domain => some 'd'
  | .setting .plan => some 'p'
  | .setting .output => some 'o'
  | .flag .verbose => some 'v'
  | .version => some 'V'
  | _ => none

def switches : List Switch :=
  [.setting .configuration, .setting .domain, .setting .plan, .setting .output, .setting .freeActionId,
    .setting .exportPath, .flag .printPlan, .flag .verbose, .version]

def longSwitch? (name : List UInt8) : Option Switch :=
  switches.find? fun switch => (longName switch).bytes == name

def shortSwitch? (letter : UInt8) : Option Switch :=
  switches.find? fun switch => (shortName? switch).any (·.toNat == letter.toNat)

def hyphen : UInt8 := 0x2D

def equals : UInt8 := 0x3D

structure Given where
  settings : Table Setting OsText := ∅
  flags : List Flag := []

namespace Given

def set (given : Given) (setting : Setting) (value : OsText) : Except Stop Given :=
  if given.settings.contains setting || !isAdmissible setting value then .error .malformed
  else .ok { given with settings := given.settings.insert setting value }

def raise (given : Given) (flag : Flag) : Except Stop Given :=
  if flag ∈ given.flags then .error .malformed
  else .ok { given with flags := flag :: given.flags }

def versionText : String := "planstrl 0.1.0\n"

/-- Reads the letters of a short word; a setting among them takes the letters behind it. The
setting that comes last in the word waits for its value. -/
def readLetters (given : Given) : List UInt8 → Except Stop (Given × Option Setting)
  | [] => .ok (given, none)
  | letter :: rest =>
      match shortSwitch? letter with
      | none => .error .malformed
      | some .version => .error (.answered versionText)
      | some (.flag flag) => do (← given.raise flag).readLetters rest
      | some (.setting setting) =>
          if rest = [] then .ok (given, some setting)
          else do
            let value := if rest.head? = some equals then rest.tail else rest
            return (← given.set setting ⟨value⟩, none)

def readLong (given : Given) (body : List UInt8) : Except Stop (Given × Option Setting) :=
  let (name, attached) := body.span (· ≠ equals)
  match longSwitch? name, attached with
  | some .version, [] => .error (.answered versionText)
  | some (.flag flag), [] => (given.raise flag).map (·, none)
  | some (.setting setting), [] => .ok (given, some setting)
  | some (.setting setting), _ :: value => (given.set setting ⟨value⟩).map (·, none)
  | _, _ => .error .malformed

def readSwitches (given : Given) (body : List UInt8) : Except Stop (Given × Option Setting) :=
  if body.head? = some hyphen then given.readLong body.tail else given.readLetters body

def isValue (word : OsText) : Bool :=
  word.bytes.head? ≠ some hyphen || word.bytes = [hyphen]

def readWords (given : Given) : (pending : Option Setting) → List OsText → Except Stop Given
  | none, [] => .ok given
  | some _, [] => .error .malformed
  | some setting, word :: words =>
      if isValue word then do (← given.set setting word).readWords none words
      else .error .malformed
  | none, word :: words =>
      if word.bytes = [hyphen, hyphen] then if words.isEmpty then .ok given else .error .malformed
      else if isValue word then .error .malformed
      else do
        let (given, pending) ← given.readSwitches word.bytes.tail
        given.readWords pending words

def fallBack (environment : Table OsText OsText) (given : Given) (setting : Setting) :
    Except Stop Given :=
  match (environmentName? setting).bind environment.find? with
  | some value => if given.settings.contains setting then .ok given else given.set setting value
  | none => .ok given

end Given

def Options.ofWords (environment : Table OsText OsText) (words : List OsText) :
    Except Stop Options := do
  let given ← ({} : Given).readWords none words
  let given ← [Setting.configuration, .domain, .output].foldlM (Given.fallBack environment) given
  match given.settings.find? .domain with
  | none => throw .malformed
  | some domain =>
      return {
        configuration := given.settings.find? .configuration
        domain
        plan := given.settings.find? .plan
        output := given.settings.find? .output
        freeActionId := (given.settings.find? .freeActionId).bind fun value => value.text?.bind number?
        exportPath := given.settings.find? .exportPath
        printPlan := given.flags.contains .printPlan }

end ContingentPlan.CommandLine
