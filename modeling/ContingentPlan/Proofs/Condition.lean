import ContingentPlan.Proofs.Requirement
import ContingentPlan.Proofs.Text.Words

/-!
When the edges of a graph tell conditions apart. The ground form of a condition whose name and values
are words is read back word by word, and it names no observation outcome unless its first word does.
The name of an outcome gives back the outcome and the fact. A suffix does not blur this: it is only put
behind the name of a completion edge.
-/

namespace ContingentPlan

namespace Text

theorem wordsFrom_of_begun {current : List Char} (begun : current ≠ []) (text : List Char) :
    ∃ rest words, wordsFrom current text = (current.reverse ++ rest) :: words := by
  induction text generalizing current with
  | nil => exact ⟨[], [], by simp [wordsFrom, begun]⟩
  | cons first text ih =>
      rw [wordsFrom]
      split
      · exact ⟨[], _, by simp [begun]; rfl⟩
      · obtain ⟨rest, words, same⟩ := ih (List.cons_ne_nil first current)
        exact ⟨first :: rest, words, by rw [same]; simp⟩

end Text

namespace Condition

def bound (condition : Condition) : List String :=
  (condition.values.map Binding.value).takeWhile (· ≠ "")

def unbound (condition : Condition) : List String :=
  (condition.values.map Binding.value).dropWhile (· ≠ "")

/-- The name and the values are words; only the last values may have no text. -/
structure Worded (condition : Condition) : Prop where
  name : Text.IsWord condition.name.toList
  bound : ∀ text ∈ condition.bound, Text.IsWord text.toList
  unbound : ∀ text ∈ condition.unbound, text = ""

instance (condition : Condition) : Decidable condition.Worded :=
  decidable_of_iff (Text.IsWord condition.name.toList ∧
      (∀ text ∈ condition.bound, Text.IsWord text.toList) ∧ ∀ text ∈ condition.unbound, text = "")
    ⟨fun ⟨name, bound, unbound⟩ => ⟨name, bound, unbound⟩,
      fun worded => ⟨worded.name, worded.bound, worded.unbound⟩⟩

theorem words_signature {condition : Condition} (worded : condition.Worded) :
    Text.words condition.signature = condition.name :: condition.bound := by
  have texts : (condition.values.map Binding.value).filter (· ≠ "") = condition.bound := by
    have solid : condition.bound.filter (· ≠ "") = condition.bound := by
      rw [List.filter_eq_self]
      intro text member
      simpa using (worded.bound text member).1
    have empty : condition.unbound.filter (· ≠ "") = [] := by
      rw [List.filter_eq_nil_iff]
      intro text member
      simp [worded.unbound text member]
    rw [← List.takeWhile_append_dropWhile (p := (· ≠ "")) (l := condition.values.map Binding.value)]
    rw [List.filter_append]
    change condition.bound.filter _ ++ condition.unbound.filter _ = _
    rw [solid, empty, List.append_nil]
  rw [signature, signatureWords, texts]
  apply Text.words_intercalate
  intro word member
  rcases List.mem_cons.mp member with rfl | later
  · exact worded.name
  · exact worded.bound word later

theorem sameRequirement_of_signature {first second : Condition} (ofFirst : first.Worded)
    (ofSecond : second.Worded) (same : first.signature = second.signature)
    (arity : first.name = second.name → first.values.length = second.values.length) :
    first.SameRequirement second := by
  have texts (condition : Condition) :
      condition.values.map Binding.value = condition.bound ++ condition.unbound :=
    List.takeWhile_append_dropWhile.symm
  have words := words_signature ofFirst
  rw [same, words_signature ofSecond, List.cons.injEq] at words
  obtain ⟨name, bound⟩ := words
  refine ⟨name.symm, ?_⟩
  have lengths := arity name.symm
  have leftFirst := congrArg List.length (texts first)
  have leftSecond := congrArg List.length (texts second)
  rw [List.length_map, List.length_append] at leftFirst leftSecond
  have unbound : first.unbound = second.unbound := by
    rw [List.eq_replicate_of_mem ofFirst.unbound, List.eq_replicate_of_mem ofSecond.unbound,
      show first.unbound.length = second.unbound.length by rw [bound] at leftSecond; omega]
  rw [texts first, texts second, bound, unbound]

theorem SameRequirement.signature_eq {first second : Condition}
    (same : first.SameRequirement second) : first.signature = second.signature := by
  rw [signature, signature, signatureWords, signatureWords, same.1, same.2]

end Condition

theorem outcomeEdge_injective {value other : Bool} {fact otherFact : String}
    (same : Reading.outcomeEdge value fact = Reading.outcomeEdge other otherFact) :
    value = other ∧ fact = otherFact := by
  have chars := congrArg String.toList same
  rw [PlanGraph.toList_outcomeEdge, PlanGraph.toList_outcomeEdge, List.append_cancel_left_eq] at chars
  rw [← String.toList_inj]
  cases value <;> cases other <;> simp_all [Reading.outcomeWord]

theorem Condition.signature_ne_outcomeEdge {condition : Condition} (worded : condition.Worded)
    (apart : ¬ PlanGraph.outcomeOpening <+: condition.name.toList) (value : Bool) (fact : String) :
    condition.signature ≠ Reading.outcomeEdge value fact := by
  intro same
  apply apart
  have words := words_signature worded
  have opening : Text.IsWord PlanGraph.outcomeOpening := by decide +kernel
  rw [same, Text.words, PlanGraph.toList_outcomeEdge, Text.wordsFrom_append opening.2] at words
  obtain ⟨rest, others, begins⟩ := Text.wordsFrom_of_begun
    (show PlanGraph.outcomeOpening.reverse ++ [] ≠ [] by simpa using opening.1)
    ((Reading.outcomeWord value).toList ++ '-' :: fact.toList)
  rw [begins, List.map_cons, List.cons.injEq] at words
  rw [← words.1, String.toList_ofList]
  simp

/-- A plain condition shares its edge with no observation outcome, and with no plain condition that
states something else. -/
structure Condition.Plain (condition : Condition) : Prop where
  worded : condition.Worded
  unobserved : ¬ PlanGraph.outcomeOpening <+: condition.name.toList
  unsuffixed : ∀ id completion attempt, PlanGraph.IsCompletionName id completion →
    condition.signature ≠ PlanGraph.nameCandidate completion .condition (attempt + 1)

theorem Condition.plain_of_dashless {condition : Condition} (worded : condition.Worded)
    (dashless : '-' ∉ condition.signature.toList) : condition.Plain where
  worded := worded
  unobserved := by
    intro opens
    apply dashless
    have dash : '-' ∈ condition.name.toList := opens.subset (by decide)
    have begins : condition.name.toList <+: condition.signature.toList := by
      rw [signature, signatureWords, String.toList_intercalate, List.map_cons]
      cases (((condition.values.map Binding.value).filter (· ≠ "")).map String.toList) with
      | nil => simp
      | cons second rest =>
          rw [List.intercalate_cons_cons, List.append_assoc]
          exact List.prefix_append _ _
    exact begins.subset dash
  unsuffixed := by
    intro id completion attempt _ same
    apply dashless
    rw [same, PlanGraph.toList_nameCandidate]
    cases attempt <;> simp [PlanGraph.suffixChars]

namespace Completed

variable {graph : PlanGraph} {nodes : List Node}

theorem nameFor_condition (completed : Completed graph nodes) (name : String) :
    graph.nameFor name .condition = name ∨
      ∃ id attempt, PlanGraph.IsCompletionName id name ∧
        graph.nameFor name .condition = PlanGraph.nameCandidate name .condition (attempt + 1) := by
  obtain ⟨attempt, -, answer, -, refused⟩ := graph.nameFor_spec name .condition
  cases attempt with
  | zero => exact Or.inl answer
  | succ attempt =>
      have held := refused 0 (by omega)
      rw [PlanGraph.nameCandidate] at held
      cases found : graph.edge? name with
      | none => simp [PlanGraph.admits, found] at held
      | some edge =>
          cases kind : edge.kind with
          | condition => simp [PlanGraph.admits, found, kind] at held
          | action =>
              obtain ⟨producer, -, -, -, named⟩ :=
                completed.producer (PlanGraph.producers?_of_edge? found kind)
              exact Or.inr ⟨producer.id, attempt, named, answer⟩

theorem signature_eq_of_nameFor (completed : Completed graph nodes) {first second : Condition}
    (ofFirst : first.Plain) (ofSecond : second.Plain)
    (same : graph.nameFor first.signature .condition = graph.nameFor second.signature .condition) :
    first.signature = second.signature := by
  rcases completed.nameFor_condition first.signature with keeps | ⟨id, attempt, completes, suffixed⟩
  · rcases completed.nameFor_condition second.signature with
      keepsToo | ⟨id, attempt, completes, suffixed⟩
    · rw [← keeps, same, keepsToo]
    · rw [keeps, suffixed] at same
      exact absurd same (ofFirst.unsuffixed id _ attempt completes)
  · rcases completed.nameFor_condition second.signature with keeps | ⟨other, again, -, suffixedToo⟩
    · rw [keeps, suffixed] at same
      exact absurd same.symm (ofSecond.unsuffixed id _ attempt completes)
    · rw [suffixed, suffixedToo] at same
      exact PlanGraph.nameCandidate_succ_injective same

theorem nameFor_signature_ne_outcomeEdge (completed : Completed graph nodes) {condition : Condition}
    (plain : condition.Plain) (value : Bool) (fact : String) :
    graph.nameFor condition.signature .condition ≠ Reading.outcomeEdge value fact := by
  rcases completed.nameFor_condition condition.signature with
    keeps | ⟨id, attempt, completes, suffixed⟩
  · rw [keeps]
    exact condition.signature_ne_outcomeEdge plain.worded plain.unobserved value fact
  · rw [suffixed]
    exact completes.nameCandidate_ne_outcomeEdge .condition (attempt + 1) value fact

end Completed

theorem map_key_bindLabels (labels values : List String) :
    (bindLabels labels values).map Binding.key = labels := by
  induction labels generalizing values with
  | nil => rfl
  | cons label labels ih =>
      cases values with
      | nil => simp [bindLabels, ih]
      | cons value values => simp [bindLabels, ih]

theorem Demanded.labels {domain : Domain} {name : String} {condition : Condition}
    (demanded : Demanded domain name condition) :
    domain.attributeLabels condition.name = .ok (condition.values.map Binding.key) := by
  cases demanded with
  | @tuple parameters head arguments _ grounded =>
      unfold groundTuple at grounded
      dsimp only at grounded
      split at grounded
      · cases grounded
      · rename_i labels declared
        cases grounded
        rw [declared, map_key_bindLabels]
  | observation observed =>
      unfold observationCondition at observed
      dsimp only at observed
      split at observed
      · cases observed
      · rename_i labels declared
        cases observed
        rw [declared, map_key_bindLabels]

theorem negative_groundTuple {domain : Domain} {parameters : List Binding} {head : String}
    {arguments : List String} {condition : Condition}
    (grounded : groundTuple domain parameters head arguments = .ok condition) :
    condition.negative = false := by
  unfold groundTuple at grounded
  dsimp only at grounded
  split at grounded
  · cases grounded
  · cases grounded
    rfl

theorem bindings_ext {first second : List Binding}
    (keys : first.map Binding.key = second.map Binding.key)
    (values : first.map Binding.value = second.map Binding.value) : first = second := by
  induction first generalizing second with
  | nil => simpa using keys.symm
  | cons binding first ih =>
      cases second with
      | nil => cases keys
      | cons other second =>
          simp only [List.map_cons, List.cons.injEq] at keys values
          rw [ih keys.2 values.2, show binding = other by
            cases binding; cases other; simp_all]

/-- The labels belong to the name, so words that agree are the texts of the same labels. -/
theorem Demanded.sameRequirement {domain : Domain} {name other : String} {first second : Condition}
    (ofFirst : Demanded domain name first) (ofSecond : Demanded domain other second)
    (worded : first.Worded) (wordedToo : second.Worded)
    (same : first.signature = second.signature) : first.SameRequirement second := by
  apply Condition.sameRequirement_of_signature worded wordedToo same
  intro names
  have labels := ofFirst.labels
  rw [names, ofSecond.labels, Except.ok.injEq] at labels
  have lengths := congrArg List.length labels
  simpa using lengths.symm

theorem Demanded.values_eq {domain : Domain} {name other : String} {first second : Condition}
    (ofFirst : Demanded domain name first) (ofSecond : Demanded domain other second)
    (same : first.SameRequirement second) : first.values = second.values := by
  have labels := ofFirst.labels
  rw [same.1, ofSecond.labels, Except.ok.injEq] at labels
  exact bindings_ext labels.symm same.2

end ContingentPlan
