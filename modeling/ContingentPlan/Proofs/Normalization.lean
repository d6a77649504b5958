import ContingentPlan.Proofs.Domain
import ContingentPlan.Proofs.Table
import ContingentPlan.Proofs.Text.LetterCase

/-!
The tables of a domain with all names in lower case. A name stands where its first spelling stood and has
the labels of the last one, whether the tables are read as a whole or declared one entry after the other.
-/

namespace ContingentPlan

/-- The keys are those of the other table in lower case, each one once, and have the value that stood
last under one of their spellings. -/
structure Lowercases {α : Type} (table normal : Table String α) : Prop where
  lowercase : ∀ key ∈ normal.keys, Text.lowercase key = key
  distinct : normal.keys.Nodup
  order : normal.keys = (table.keys.map Text.lowercase).eraseDups
  find? : ∀ name, normal.find? (Text.lowercase name) =
    ((table.entries.filter fun entry => Text.lowercase entry.1 = Text.lowercase name).getLast?).map
      Prod.snd

theorem Table.lowercases_rename {α : Type} (table : Table String α) :
    Lowercases table (table.rename Text.lowercase) where
  lowercase := by
    intro key member
    obtain ⟨other, -, rfl⟩ := (table.mem_keys_rename Text.lowercase).mp member
    exact Text.lowercase_lowercase other
  distinct := (table.rename Text.lowercase).distinct
  order := table.keys_rename Text.lowercase
  find? name := table.find?_rename Text.lowercase (Text.lowercase name)

theorem Lowercases.rename {α : Type} {table normal : Table String α} (lowercases : Lowercases table normal) :
    normal.rename Text.lowercase = normal :=
  Table.rename_of_fixed lowercases.lowercase

inductive Declaration
  | predicate (name : String) (labels : List String)
  | function (name : String) (labels : List String)
deriving DecidableEq

namespace Declaration

def Apart : Declaration → Declaration → Prop
  | .predicate first _, .predicate second _ => first ≠ second
  | .function first _, .function second _ => first ≠ second
  | _, _ => True

instance : DecidableRel Apart
  | .predicate first _, .predicate second _ => inferInstanceAs (Decidable (first ≠ second))
  | .function first _, .function second _ => inferInstanceAs (Decidable (first ≠ second))
  | .predicate _ _, .function _ _ => isTrue trivial
  | .function _ _, .predicate _ _ => isTrue trivial

end Declaration

namespace Domain

variable {domain : Domain} {declaration : Declaration} {declarations : List Declaration}

def record (domain : Domain) : Declaration → Domain
  | .predicate name labels => { domain with predicates := domain.predicates.insert name labels }
  | .function name labels => { domain with functions := domain.functions.insert name labels }

def declare (domain : Domain) : Declaration → Domain
  | .predicate name labels => domain.addPredicate name labels
  | .function name labels => domain.addFunction name labels

def Lacks (domain : Domain) : Declaration → Prop
  | .predicate name _ => name ∉ domain.predicates.keys
  | .function name _ => name ∉ domain.functions.keys

theorem normalized_record (lacks : domain.Lacks declaration) :
    (domain.record declaration).normalized = domain.normalized.declare declaration := by
  cases declaration with
  | predicate name labels =>
      simp only [record, declare, normalized, addPredicate, Domain.mk.injEq, and_true]
      exact Table.rename_insert labels lacks
  | function name labels =>
      simp only [record, declare, normalized, addFunction, Domain.mk.injEq, and_true, true_and]
      exact Table.rename_insert labels lacks

theorem lacks_record {other : Declaration} (lacks : domain.Lacks other)
    (apart : declaration.Apart other) : (domain.record declaration).Lacks other := by
  cases declaration <;> cases other <;>
    simp only [Lacks, record, Table.mem_keys_insert, not_or] at lacks ⊢
  · exact ⟨Ne.symm apart, lacks⟩
  · exact lacks
  · exact lacks
  · exact ⟨Ne.symm apart, lacks⟩

theorem normalized_foldl_record (apart : declarations.Pairwise Declaration.Apart)
    (lacks : ∀ declaration ∈ declarations, domain.Lacks declaration) :
    (declarations.foldl record domain).normalized = declarations.foldl declare domain.normalized := by
  induction declarations generalizing domain with
  | nil => rfl
  | cons declaration declarations ih =>
      rw [List.pairwise_cons] at apart
      rw [List.forall_mem_cons] at lacks
      rw [List.foldl_cons, List.foldl_cons, ← normalized_record lacks.1]
      exact ih apart.2 fun other member => lacks_record (lacks.2 other member) (apart.1 other member)

/-- Normalised tables have every name once and in lower case, and a second time changes nothing. Tables
that are declared under lower case names from the start are the same. -/
theorem lowercases_normalized (domain : Domain)
    (apart : declarations.Pairwise Declaration.Apart) :
    (Lowercases domain.predicates domain.normalized.predicates ∧
      Lowercases domain.functions domain.normalized.functions ∧
      Lowercases domain.operators domain.normalized.operators ∧
      Lowercases domain.preconditions domain.normalized.preconditions) ∧
    domain.normalized.normalized = domain.normalized ∧
    (declarations.foldl record {}).normalized = declarations.foldl declare {} := by
  have predicates := domain.predicates.lowercases_rename
  have functions := domain.functions.lowercases_rename
  have operators := domain.operators.lowercases_rename
  have preconditions := domain.preconditions.lowercases_rename
  refine ⟨⟨predicates, functions, operators, preconditions⟩, ?_, ?_⟩
  · simp only [normalized, predicates.rename, functions.rename, operators.rename, preconditions.rename]
  · have nothing : ∀ declaration, ({} : Domain).Lacks declaration := by
      intro declaration
      cases declaration <;> exact List.not_mem_nil
    exact normalized_foldl_record apart fun declaration _ => nothing declaration

def ferryDeclarations : List Declaration :=
  [.predicate "At" ["boat"], .function "ΦΟΡΤΟΣ" ["boat"], .predicate "Dock" ["quay"],
    .predicate "AT" ["boat", "quay"]]

def ferry : Domain := ferryDeclarations.foldl record {}

theorem ferry_lowercases :
    ferryDeclarations.Pairwise Declaration.Apart ∧
    ferry.normalized.predicates.entries = [("at", ["boat", "quay"]), ("dock", ["quay"])] ∧
    ferry.normalized.functions.keys = ["φορτος"] ∧
    Lowercases ferry.predicates ferry.normalized.predicates ∧
    ferry.normalized.normalized = ferry.normalized ∧
    ferry.normalized = ferryDeclarations.foldl declare {} := by
  have apart : ferryDeclarations.Pairwise Declaration.Apart := by decide
  obtain ⟨⟨predicates, -⟩, again, declared⟩ := lowercases_normalized ferry apart
  exact ⟨apart, by decide +kernel, by decide +kernel, predicates, again, declared⟩

end Domain

end ContingentPlan
