import ContingentPlan.Domain
import ContingentPlan.Proofs.Table
import Mathlib.Data.List.Sort

/-!
Look-ups in the tables of a domain. A look-up fails exactly where the name is not declared, and its
fault then lists the names of the tables that were searched.
-/

namespace ContingentPlan

structure Lists (known names : List String) : Prop where
  ascending : known.Pairwise (· < ·)
  mem_iff : ∀ name, name ∈ known ↔ name ∈ names

theorem Lists.eq {known other names : List String} (first : Lists known names)
    (second : Lists other names) : known = other := by
  apply first.ascending.eq_of_mem_iff second.ascending
  intro name
  rw [first.mem_iff, second.mem_iff]

theorem lists_sortedNames (names : List String) : Lists (sortedNames names) names where
  ascending := by
    rw [sortedNames, Catalog.names, List.pairwise_map]
    exact Catalog.ascending _
  mem_iff := by
    have collected (catalog : Catalog Unit) (name : String) :
        name ∈ (names.foldl (fun catalog name => catalog.insert name ()) catalog).names ↔
          name ∈ catalog.names ∨ name ∈ names := by
      induction names generalizing catalog with
      | nil => simp
      | cons first names ih =>
          rw [List.foldl_cons, ih, Catalog.mem_names_iff, Catalog.mem_names_iff,
            Catalog.find?_insert, List.mem_cons]
          by_cases same : name = first <;> simp [same]
    intro name
    rw [sortedNames, collected]
    simp [Catalog.names, EmptyCollection.emptyCollection]

namespace Domain

variable {domain : Domain} {name : String} {fault : PlanFault}

def undeclared (domain : Domain) (name : String) : PlanFault :=
  .unknownName .attributes name (sortedNames (domain.predicates.keys ++ domain.functions.keys))

theorem attributeLabels_eq_error_iff :
    domain.attributeLabels name = .error fault ↔
      domain.declares name = false ∧ fault = domain.undeclared name := by
  rw [attributeLabels, declares, isPredicate, isFunction, Table.contains, Table.contains, undeclared]
  cases domain.predicates.find? name with
  | some labels => simp
  | none =>
      cases domain.functions.find? name with
      | some labels => simp
      | none => simp [eq_comm]

theorem attributeLabels_eq_ok_iff {labels : List String} :
    domain.attributeLabels name = .ok labels ↔
      domain.predicates.find? name = some labels ∨
        domain.predicates.find? name = none ∧ domain.functions.find? name = some labels := by
  rw [attributeLabels]
  cases domain.predicates.find? name with
  | some found => simp
  | none => cases domain.functions.find? name <;> simp

theorem operatorLabels_eq_error_iff :
    domain.operatorLabels name = .error fault ↔
      name ∉ domain.operators.keys ∧
        fault = .unknownName .operators name (sortedNames domain.operators.keys) := by
  rw [operatorLabels, ← Table.find?_eq_none_iff]
  cases domain.operators.find? name with
  | some labels => simp
  | none => simp [eq_comm]

theorem preconditionTuples_eq_error_iff :
    domain.preconditionTuples name = .error fault ↔
      Text.lowercase name ∉ domain.preconditions.keys ∧
        fault = .unknownName .preconditions name (sortedNames domain.preconditions.keys) := by
  rw [preconditionTuples, ← Table.find?_eq_none_iff]
  cases domain.preconditions.find? (Text.lowercase name) with
  | some tuples => simp
  | none => simp [eq_comm]

theorem preconditionTuples_eq_ok_iff {tuples : List ConditionTuple} :
    domain.preconditionTuples name = .ok tuples ↔
      domain.preconditions.find? (Text.lowercase name) = some tuples := by
  rw [preconditionTuples]
  cases domain.preconditions.find? (Text.lowercase name) <;> simp

end Domain

end ContingentPlan
