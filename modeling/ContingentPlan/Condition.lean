/-!
Ground knowledge conditions. The signature of a condition is its name followed by the values
that are bound; two conditions state the same requirement when name and values agree, whatever
the values are called.
-/

namespace ContingentPlan

structure Binding where
  key : String
  value : String
deriving DecidableEq, Repr

inductive Knowledge
  | fact
  | function
deriving DecidableEq, Repr

structure Condition where
  kind : Knowledge
  name : String
  negative : Bool
  values : List Binding
deriving DecidableEq, Repr

namespace Condition

def SameRequirement (left right : Condition) : Prop :=
  left.name = right.name ∧
    left.values.map Binding.value = right.values.map Binding.value

instance (left right : Condition) : Decidable (SameRequirement left right) :=
  inferInstanceAs (Decidable (_ ∧ _))

/-- The words of the ground form, such as `at robot1 rooma`; an unbound value leaves no word. -/
def signatureWords (condition : Condition) : List String :=
  condition.name :: (condition.values.map Binding.value).filter (· ≠ "")

def signature (condition : Condition) : String := " ".intercalate condition.signatureWords

end Condition

end ContingentPlan
