import ContingentPlan.Codec
import ContingentPlan.Domain
import ContingentPlan.Path

/-!
The document form of a planning domain. A table that is missing is empty. Domain texts are JSON or
TOML, which the path of the file tells.
-/

namespace ContingentPlan.Domain

def labelsTable (table : Table String (List String)) : Document :=
  .ofTable (fun labels => .list (labels.map .text)) table

def toDocument (domain : Domain) : Document :=
  .fields
    [("predicates", labelsTable domain.predicates), ("functions", labelsTable domain.functions),
     ("operators", labelsTable domain.operators),
     ("preconditions",
       .ofTable (fun tuples => .list (tuples.map fun tuple => .list (tuple.map .text)))
         domain.preconditions)]

def readLabels? : Document → Option (List String) := Document.list? Document.text?

def readTuples? : Document → Option (List ConditionTuple) := Document.list? readLabels?

def readTable? {α : Type} (read : Document → Option α) : Option Document → Option (Table String α)
  | none => some ∅
  | some document => document.table? read

def ofDocument? (document : Document) : Option Domain := do
  match ← document.fields? ["predicates", "functions", "operators", "preconditions"] with
  | [predicates, functions, operators, preconditions] =>
      return {
        predicates := ← readTable? readLabels? predicates
        functions := ← readTable? readLabels? functions
        operators := ← readTable? readLabels? operators
        preconditions := ← readTable? readTuples? preconditions }
  | _ => none

def lowerByte (byte : UInt8) : UInt8 := if 0x41 ≤ byte ∧ byte ≤ 0x5A then byte + 0x20 else byte

def isJsonPath (path : OsText) : Bool :=
  match Path.extension? path with
  | some extension => extension.bytes.map lowerByte == (OsText.ofText "json").bytes
  | none => false

def ofText (json toml : Codec) (path : OsText) (text : String) : Except PlanFault Domain :=
  match (if isJsonPath path then json else toml).readAs ofDocument? text with
  | .ok domain => .ok domain.normalized
  | .error reason => .error (.malformedDomain path reason)

end ContingentPlan.Domain
