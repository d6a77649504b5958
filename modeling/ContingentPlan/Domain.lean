import ContingentPlan.Catalog
import ContingentPlan.Fault
import ContingentPlan.Table
import ContingentPlan.Text.Lowercase

/-!
The tables of a planning domain: the parameter labels of its predicates, functions and operators,
and the precondition tuples of every operator. Names are looked up in lower case, so the tables of
a loaded domain are normalised first.
-/

namespace ContingentPlan

abbrev ConditionTuple := List String

structure Domain where
  predicates : Table String (List String) := ∅
  functions : Table String (List String) := ∅
  operators : Table String (List String) := ∅
  preconditions : Table String (List ConditionTuple) := ∅
deriving DecidableEq

def sortedNames (names : List String) : List String :=
  (names.foldl (fun catalog name => catalog.insert name ()) (∅ : Catalog Unit)).names

namespace Domain

def addPredicate (domain : Domain) (name : String) (labels : List String) : Domain :=
  { domain with predicates := domain.predicates.insert (Text.lowercase name) labels }

def addFunction (domain : Domain) (name : String) (labels : List String) : Domain :=
  { domain with functions := domain.functions.insert (Text.lowercase name) labels }

/-- Declares an operator, which then has a precondition entry too. -/
def addOperator (domain : Domain) (name : String) (labels : List String) : Domain :=
  let key := Text.lowercase name
  { domain with
    operators := domain.operators.insert key labels
    preconditions := domain.preconditions.insert key ((domain.preconditions.find? key).getD []) }

def addPrecondition (domain : Domain) (operator : String) (tuple : ConditionTuple) : Domain :=
  let key := Text.lowercase operator
  { domain with
    preconditions :=
      domain.preconditions.insert key ((domain.preconditions.find? key).getD [] ++ [tuple]) }

def normalized (domain : Domain) : Domain where
  predicates := domain.predicates.rename Text.lowercase
  functions := domain.functions.rename Text.lowercase
  operators := domain.operators.rename Text.lowercase
  preconditions := domain.preconditions.rename Text.lowercase

def isPredicate (domain : Domain) (name : String) : Bool := domain.predicates.contains name

def isFunction (domain : Domain) (name : String) : Bool := domain.functions.contains name

def declares (domain : Domain) (name : String) : Bool :=
  domain.isPredicate name || domain.isFunction name

def attributeLabels (domain : Domain) (name : String) : Except PlanFault (List String) :=
  match (domain.predicates.find? name).or (domain.functions.find? name) with
  | some labels => .ok labels
  | none =>
      .error (.unknownName .attributes name
        (sortedNames (domain.predicates.keys ++ domain.functions.keys)))

def operatorLabels (domain : Domain) (name : String) : Except PlanFault (List String) :=
  match domain.operators.find? name with
  | some labels => .ok labels
  | none => .error (.unknownName .operators name (sortedNames domain.operators.keys))

def preconditionTuples (domain : Domain) (operator : String) :
    Except PlanFault (List ConditionTuple) :=
  match domain.preconditions.find? (Text.lowercase operator) with
  | some tuples => .ok tuples
  | none => .error (.unknownName .preconditions operator (sortedNames domain.preconditions.keys))

end Domain

end ContingentPlan
