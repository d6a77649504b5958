import ContingentPlan.Proofs.Grounding
import ContingentPlan.Proofs.Text.Lowercase

/-!
Ground forms tell requirements apart. In a domain whose names are words, all that its tuples and
observations come to are words too, and only the last values of a condition are left without one. So two
conditions are written alike exactly where they state the same requirement.
-/

namespace ContingentPlan

theorem Text.isWord_lowercase {word : String} (isWord : IsWord word.toList) :
    IsWord (lowercase word).toList := by
  rw [lowercase, String.toList_ofList]
  exact ⟨fun empty => isWord.1 (lowercaseFrom_eq_nil_iff.mp empty), Solid.lowercase isWord.2 []⟩

structure Domain.Worded (domain : Domain) : Prop where
  attributes : ∀ name ∈ domain.predicates.keys ++ domain.functions.keys, Text.IsWord name.toList
  tuples : ∀ entry ∈ domain.preconditions.entries, ∀ tuple ∈ entry.2, ∀ word ∈ tuple,
    Text.IsWord word.toList

instance (domain : Domain) : Decidable domain.Worded :=
  decidable_of_iff
    ((∀ name ∈ domain.predicates.keys ++ domain.functions.keys, Text.IsWord name.toList) ∧
      ∀ entry ∈ domain.preconditions.entries, ∀ tuple ∈ entry.2, ∀ word ∈ tuple,
        Text.IsWord word.toList)
    ⟨fun ⟨attributes, tuples⟩ => ⟨attributes, tuples⟩,
      fun worded => ⟨worded.attributes, worded.tuples⟩⟩

def Node.Worded (node : Node) : Prop :=
  ∀ binding ∈ node.dispatch.parameters, Text.IsWord binding.value.toList

instance (node : Node) : Decidable node.Worded :=
  inferInstanceAs (Decidable (∀ binding ∈ node.dispatch.parameters, _))

/-- The conditions that come from the preconditions of a node or from an observation. -/
inductive Produced (domain : Domain) : Condition → Prop
  | resolved {graph : PlanGraph} {node : Node} {requirement : Requirement} : node.Worded →
      requirement ∈ (graph.resolve domain node).requirements → Produced domain requirement.condition
  | observed {fact : String} {outcome : Bool} {condition : Condition} :
      observationCondition domain fact outcome = .ok condition → Produced domain condition

section Provenance

variable {domain : Domain} {requirement : Requirement}

theorem Resolution.mem_requirements_require {resolution : Resolution} {condition : Condition}
    (member : requirement ∈ (resolution.require condition).requirements) :
    requirement ∈ resolution.requirements ∨ requirement.condition = condition := by
  rw [require_eq] at member
  split at member
  · rcases mem_append_singleton.mp member with older | rfl
    · exact Or.inl older
    · exact Or.inr rfl
  · exact Or.inl member

theorem Resolution.mem_requirements_addTuples {resolution : Resolution} {tuples : List ConditionTuple}
    (member : requirement ∈ (resolution.addTuples domain tuples).requirements) :
    requirement ∈ resolution.requirements ∨ ∃ head arguments, head :: arguments ∈ tuples ∧
      groundTuple domain resolution.node.dispatch.parameters head arguments =
        .ok requirement.condition := by
  induction tuples generalizing resolution with
  | nil => exact Or.inl member
  | cons tuple tuples ih =>
      cases tuple with
      | nil =>
          rcases ih member with older | ⟨head, arguments, among, grounded⟩
          · exact Or.inl older
          · exact Or.inr ⟨head, arguments, List.mem_cons_of_mem _ among, grounded⟩
      | cons head arguments =>
          rw [addTuples] at member
          cases found : groundTuple domain resolution.node.dispatch.parameters head arguments with
          | error fault =>
              rw [found] at member
              exact Or.inl member
          | ok condition =>
              rw [found] at member
              rcases ih member with earlier | ⟨other, others, among, grounded⟩
              · rcases mem_requirements_require earlier with older | own
                · exact Or.inl older
                · exact Or.inr ⟨head, arguments, List.mem_cons_self, by rw [own, found]⟩
              · rw [resolution.dispatch_require] at grounded
                exact Or.inr ⟨other, others, List.mem_cons_of_mem _ among, grounded⟩

theorem PlanGraph.mem_requirements_resolve {graph : PlanGraph} {node : Node}
    (member : requirement ∈ (graph.resolve domain node).requirements) :
    ∃ tuples head arguments,
      domain.preconditionTuples (Text.lowercase node.dispatch.name) = .ok tuples ∧
      head :: arguments ∈ tuples ∧
      groundTuple domain node.dispatch.parameters head arguments = .ok requirement.condition := by
  unfold resolve at member
  cases found : domain.preconditionTuples (Text.lowercase node.dispatch.name) with
  | error fault =>
      rw [found] at member
      cases member
  | ok tuples =>
      rw [found] at member
      rcases Resolution.mem_requirements_addTuples member with older | ⟨head, arguments, own⟩
      · cases older
      · exact ⟨tuples, head, arguments, rfl, own⟩

theorem Produced.demanded {condition : Condition} (produced : Produced domain condition) :
    ∃ name, Demanded domain name condition := by
  cases produced with
  | resolved _ member =>
      obtain ⟨_, _, _, _, _, grounded⟩ := PlanGraph.mem_requirements_resolve member
      exact ⟨_, .tuple grounded⟩
  | observed observed => exact ⟨_, .observation observed⟩

end Provenance

theorem map_value_bindLabels (labels values : List String) :
    (bindLabels labels values).map Binding.value =
      values.take labels.length ++ List.replicate (labels.length - values.length) "" := by
  induction labels generalizing values with
  | nil => simp [bindLabels]
  | cons label labels ih =>
      cases values with
      | nil => simp [bindLabels, ih, List.replicate_succ]
      | cons value values => simp [bindLabels, ih]

section Wording

variable {domain : Domain} {condition : Condition}

theorem Condition.worded_of_values {labels values : List String}
    (name : Text.IsWord condition.name.toList) (bound : condition.values = bindLabels labels values)
    (words : ∀ value ∈ values, Text.IsWord value.toList) : condition.Worded := by
  have given : ∀ value ∈ values.take labels.length, Text.IsWord value.toList :=
    fun value member => words value (List.mem_of_mem_take member)
  have filled : ∀ value ∈ values.take labels.length, decide (value ≠ "") = true := by
    intro value member
    simpa using (given value member).1
  constructor
  · exact name
  · rw [Condition.bound, bound, map_value_bindLabels, List.takeWhile_append_of_pos filled,
      List.takeWhile_replicate]
    simpa using given
  · rw [Condition.unbound, bound, map_value_bindLabels, List.dropWhile_append_of_pos filled,
      List.dropWhile_replicate]
    simp

theorem isWord_of_attributeLabels {name : String} {labels : List String} (worded : domain.Worded)
    (declared : domain.attributeLabels name = .ok labels) : Text.IsWord name.toList := by
  apply worded.attributes
  rw [List.mem_append]
  by_contra absent
  rw [not_or, ← Table.find?_eq_none_iff, ← Table.find?_eq_none_iff] at absent
  rcases Domain.attributeLabels_eq_ok_iff.mp declared with predicate | ⟨-, function⟩
  · rw [absent.1] at predicate
    cases predicate
  · rw [absent.2] at function
    cases function

theorem isWord_groundArgument {parameters : List Binding} {argument : String}
    (worded : ∀ binding ∈ parameters, Text.IsWord binding.value.toList)
    (isWord : Text.IsWord argument.toList) :
    Text.IsWord (groundArgument parameters argument).toList := by
  have bound := bound_groundArgument parameters argument
  generalize groundArgument parameters argument = value at bound
  cases bound with
  | parameter split _ _ =>
      apply worded
      rw [split]
      simp
  | constant _ => exact Text.isWord_lowercase isWord

theorem worded_groundTuple {parameters : List Binding} {head : String} {arguments : List String}
    (worded : domain.Worded) (given : ∀ binding ∈ parameters, Text.IsWord binding.value.toList)
    (words : ∀ argument ∈ arguments, Text.IsWord argument.toList)
    (grounded : groundTuple domain parameters head arguments = .ok condition) :
    condition.Worded := by
  have declared := (Demanded.tuple grounded).labels
  have values := (groundTuple_eq_ok_iff.mp grounded).values_eq
  apply Condition.worded_of_values (isWord_of_attributeLabels worded declared) values.symm
  intro value member
  obtain ⟨argument, among, rfl⟩ := List.mem_map.mp member
  exact isWord_groundArgument given (words argument among)

theorem worded_observationCondition {fact : String} {outcome : Bool} (worded : domain.Worded)
    (observed : observationCondition domain fact outcome = .ok condition) : condition.Worded := by
  have declared := (Demanded.observation observed).labels
  unfold observationCondition at observed
  dsimp only at observed
  split at observed
  · cases observed
  · cases observed
    apply Condition.worded_of_values (isWord_of_attributeLabels worded declared) rfl
    intro value member
    exact Text.isWord_of_mem_words (List.mem_of_mem_tail member)

theorem Produced.worded (produced : Produced domain condition) (worded : domain.Worded) :
    condition.Worded := by
  cases produced with
  | resolved given member =>
      obtain ⟨tuples, head, arguments, found, among, grounded⟩ :=
        PlanGraph.mem_requirements_resolve member
      have entry := (lookup_eq_some_iff_mem domain.preconditions.distinct).mp
        (Domain.preconditionTuples_eq_ok_iff.mp found)
      have words := worded.tuples _ entry _ among
      exact worded_groundTuple worded given
        (fun argument member => words argument (List.mem_cons_of_mem head member)) grounded
  | observed observed => exact worded_observationCondition worded observed

end Wording

/-- In a domain of words, what is written alike states the same requirement. -/
theorem Domain.Worded.signature_eq_iff {domain : Domain} (worded : domain.Worded)
    {first second : Condition} (ofFirst : Produced domain first) (ofSecond : Produced domain second) :
    first.signature = second.signature ↔ first.SameRequirement second := by
  obtain ⟨name, demanded⟩ := ofFirst.demanded
  obtain ⟨other, demandedToo⟩ := ofSecond.demanded
  constructor
  · exact demanded.sameRequirement demandedToo (ofFirst.worded worded) (ofSecond.worded worded)
  · exact Condition.SameRequirement.signature_eq

/-- The depot's first requirement is also what may be observed, and its second one, which has no word for
the last label, is not. -/
theorem depot_signatures :
    Domain.depot.Worded ∧ depotNode.Worded ∧ ∃ first second observed,
      ((∅ : PlanGraph).resolve .depot depotNode).requirements.map Requirement.condition =
        [first, second, ⟨.function, "load", false, [⟨"r", "cart"⟩]⟩] ∧
      observationCondition .depot " at  cart b " false = .ok observed ∧
      first.signature = observed.signature ∧ first.SameRequirement observed ∧
      second.signature ≠ observed.signature := by
  have worded : Domain.depot.Worded := by decide +kernel
  have given : depotNode.Worded := by decide +kernel
  have stated : ((∅ : PlanGraph).resolve .depot depotNode).requirements.map Requirement.condition =
      [⟨.fact, "at", false, [⟨"r", "cart"⟩, ⟨"l", "b"⟩]⟩,
        ⟨.fact, "road", false, [⟨"from", "b"⟩, ⟨"to", ""⟩]⟩,
        ⟨.function, "load", false, [⟨"r", "cart"⟩]⟩] := by decide +kernel
  have produced : ∀ condition ∈
      ((∅ : PlanGraph).resolve .depot depotNode).requirements.map Requirement.condition,
      Produced .depot condition := by
    intro condition member
    obtain ⟨requirement, among, rfl⟩ := List.mem_map.mp member
    exact .resolved given among
  rw [stated] at produced
  have observed : observationCondition .depot " at  cart b " false =
      .ok ⟨.fact, "at", true, [⟨"r", "cart"⟩, ⟨"l", "b"⟩]⟩ := by decide +kernel
  have same := worded.signature_eq_iff (produced _ List.mem_cons_self) (.observed observed)
  have other := worded.signature_eq_iff (produced _ (List.mem_cons_of_mem _ List.mem_cons_self))
    (.observed observed)
  exact ⟨worded, given, _, _, _, stated, observed, same.mpr (by decide), by decide,
    fun equal => absurd (other.mp equal) (by decide)⟩

end ContingentPlan
