import ContingentPlan.OsText

/-!
Why the work on a plan stops, and what is merely worth a warning. Each cause has one text.
-/

namespace ContingentPlan

inductive DomainTable
  | operators
  | preconditions
  | attributes
deriving DecidableEq, Repr

def DomainTable.description : DomainTable → String
  | .operators => "operator"
  | .preconditions => "operator precondition entry"
  | .attributes => "predicate or function"

inductive FileFault
  | notFound
  | isDirectory
  | notDirectory
  | alreadyExists
  | notText
  | busy
  | other (detail : String)
deriving DecidableEq, Repr

def FileFault.message : FileFault → String
  | .notFound => "No such file or directory (os error 2)"
  | .isDirectory => "Is a directory (os error 21)"
  | .notDirectory => "Not a directory (os error 20)"
  | .alreadyExists => "File exists (os error 17)"
  | .notText => "stream did not contain valid UTF-8"
  | .busy => "Device or resource busy (os error 16)"
  | .other detail => detail

inductive PlanFault
  | unknownName (table : DomainTable) (name : String) (known : List String)
  | tooManyArguments (operator : String) (declared given : Nat)
  | file (path : OsText) (fault : FileFault)
  | malformedDomain (path : OsText) (reason : String)
  | malformedConfiguration (path : OsText) (reason : String)
  | unwritable (reason : String)
deriving DecidableEq, Repr

def PlanFault.message : PlanFault → String
  | .unknownName table name known =>
      s!"Could not find the {table.description} '{name}' in the domain model (known: "
        ++ ", ".intercalate known ++ ")"
  | .tooManyArguments operator declared given =>
      s!"Operator '{operator}' takes {declared} parameters but the plan gives {given}"
  | .file path fault => s!"I/O error on {path}: {fault.message}"
  | .malformedDomain path reason => s!"Invalid domain tables in {path}: {reason}"
  | .malformedConfiguration path reason => s!"Invalid configuration in {path}: {reason}"
  | .unwritable reason => s!"Serialization failed: {reason}"

inductive Anomaly
  | shallowStack (token : String)
  | emptyStack (token : String)
  | malformedLine (line : String)
  | missingObservation (action : String)
deriving DecidableEq, Repr

structure Warning where
  line : Nat
  anomaly : Anomaly
deriving DecidableEq, Repr

def Warning.message (warning : Warning) : String :=
  s!"line {warning.line}: " ++
    match warning.anomaly with
    | .shallowStack token => s!"'{token}' needs two live branch points, stack left unchanged"
    | .emptyStack token => s!"'{token}' with an empty continuation stack"
    | .malformedLine line => s!"skipped malformed line '{line}'"
    | .missingObservation action =>
        s!"'{action}' follows an observation outcome but no observation is pending"

end ContingentPlan
