import ContingentPlan.BuiltIn

/-!
The program: a run of the command line on the files of the machine.
-/

namespace ContingentPlan.CommandLine

def faultOf : IO.Error → FileFault
  | .noFileOrDirectory .. => .notFound
  | .alreadyExists .. => .alreadyExists
  | .resourceBusy .. => .busy
  | error => .other (toString error)

/-- Only files whose paths are text can be reached from here. -/
def pathText (path : OsText) : IO String :=
  match path.text? with
  | some text => return text
  | none => throw (IO.userError "the path is not valid UTF-8")

def readFile (path : OsText) : IO (Except FileFault String) := do
  try
    match String.fromUTF8? (← IO.FS.readBinFile (← pathText path)) with
    | some text => return .ok text
    | none => return .error .notText
  catch error => return .error (faultOf error)

def writeFile (path : OsText) (content : String) : IO (Option PlanFault) := do
  let parent := FileTree.parentDirectory path
  try
    IO.FS.createDirAll (← pathText parent)
  catch error => return some (.file parent (faultOf error))
  let mark := toString (← IO.monoNanosNow)
  let temporary := Path.join parent (OsText.ofText (".unfinished-" ++ mark))
  try
    IO.FS.writeFile (← pathText temporary) content
    IO.FS.rename (← pathText temporary) (← pathText path)
    return none
  catch error =>
    try IO.FS.removeFile (← pathText temporary) catch _ => pure ()
    return some (.file path (faultOf error))

def report (failure : Failure) : IO UInt32 := do
  IO.eprintln s!"Error: {failure.activity}\n\nCaused by:\n    {failure.cause.message}"
  return 1

def writeFiles : List Output → IO UInt32
  | [] => return 0
  | output :: outputs => do
      let activity := s!"writing {output.path}"
      match output.content with
      | .error cause => report { activity, cause }
      | .ok content =>
          match ← writeFile output.path content with
          | none => writeFiles outputs
          | some cause => report { activity, cause }

def readEnvironment : IO (Table OsText OsText) :=
  [Setting.configuration, .domain, .output].foldlM
    (fun environment setting => do
      match environmentName? setting with
      | none => return environment
      | some name =>
          match ← IO.getEnv name.lossy with
          | none => return environment
          | some value => return environment.insert name value)
    ∅

def runProgram (words : List String) : IO UInt32 := do
  let libraries := Libraries.builtIn
  match libraries.arguments (← readEnvironment) (words.map OsText.ofText) with
  | .error .malformed =>
      IO.eprintln "usage: planstrl --domain DOMAIN [OPTIONS]"
      return 2
  | .error (.answered text) =>
      IO.print text
      return 0
  | .ok options =>
      match ← (prepare libraries (fun _ => readFile) options).run with
      | .error failure => report failure
      | .ok work =>
          IO.print work.text
          writeFiles work.outputs

end ContingentPlan.CommandLine

def main (words : List String) : IO UInt32 := ContingentPlan.CommandLine.runProgram words
