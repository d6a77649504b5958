import ContingentPlan.Proofs.Grounding
import ContingentPlan.Proofs.Plan.Knowledge
import ContingentPlan.Proofs.Plan.Numbering
import ContingentPlan.Proofs.Text.Trim

/-!
Where the records of a plan come from. Whichever demand came first for an edge, its record is the ground
form of a precondition of some node, or the outcome of a fact that an action of the plan observes; an
outcome is recorded under its own name. Both take their labels from the tables of the domain, and only an
outcome is ever negative.
-/

namespace ContingentPlan

def TraceLine.Observes (line : TraceLine) (fact : String) : Prop :=
  ∃ signature, line.token? = some (.action signature) ∧ signature.observedFact? = some fact

section Events

variable {past : List Event} {fact : String} {value : Bool}

theorem Reading.observes_of_event? {reading : Reading} {line : TraceLine}
    (event : reading.event? line = some (.action (some fact))) : line.Observes fact := by
  unfold event? at event
  split at event
  · rename_i signature token
    simp only [Option.some.injEq, Event.action.injEq] at event
    exact ⟨signature, token, event⟩
  · cases event
  · split at event <;> cases event
  · cases event

theorem Reading.mem_remember {domain : Domain} {reading : Reading} {lines : List TraceLine}
    {event : Event} (member : event ∈ reading.remember domain past lines) :
    event ∈ past ∨ ∃ line ∈ lines, ∃ during : Reading, during.event? line = some event := by
  induction lines generalizing reading past with
  | nil => exact Or.inl member
  | cons line lines ih =>
      have among (own : event ∈ (reading.event? line).toList ++ past) :
          event ∈ past ∨ ∃ other ∈ line :: lines, ∃ during : Reading,
            during.event? other = some event := by
        rcases List.mem_append.mp own with newest | older
        · exact Or.inr ⟨line, List.mem_cons_self, reading, Option.mem_toList.mp newest⟩
        · exact Or.inl older
      rw [remember] at member
      split at member
      · rcases ih member with earlier | ⟨other, later, during, event⟩
        · exact among earlier
        · exact Or.inr ⟨other, List.mem_cons_of_mem line later, during, event⟩
      · exact among member

theorem exists_observes {domain : Domain} {freeId : Nat} {lines : List TraceLine}
    (member : .action (some fact) ∈ history domain freeId lines) :
    ∃ line ∈ lines, line.Observes fact := by
  rcases Reading.mem_remember member with older | ⟨line, among, during, event⟩
  · cases older
  · exact ⟨line, among, Reading.observes_of_event? event⟩

theorem mem_of_gatingAfter (gating : gatingAfter past = .outcome value fact) :
    .action (some fact) ∈ past := by
  unfold gatingAfter at gating
  split at gating
  · cases gating
    exact List.mem_cons_self
  · rename_i older
    split at gating
    · cases gating
    · rename_i latest others governs
      cases gating
      have governing : fact ∈ governing older := by rw [governs]; exact List.mem_cons_self
      obtain ⟨event, among, observed⟩ := List.mem_filterMap.mp governing
      have own := List.mem_cons_of_mem .turn ((List.takeWhile_sublist _).subset among)
      cases event with
      | action seen =>
          rw [Event.fact?] at observed
          rwa [observed] at own
      | shed => cases observed
      | turn => cases observed
  · cases gating

theorem mem_of_mem_gatings (member : .outcome value fact ∈ gatings past) :
    .action (some fact) ∈ past := by
  induction past with
  | nil => cases member
  | cons event past ih =>
      cases event with
      | action seen =>
          rcases List.mem_append.mp member with older | newest
          · exact List.mem_cons_of_mem _ (ih older)
          · exact List.mem_cons_of_mem _ (mem_of_gatingAfter (List.mem_singleton.mp newest).symm)
      | shed => exact List.mem_cons_of_mem _ (ih member)
      | turn => exact List.mem_cons_of_mem _ (ih member)

end Events

theorem Signature.words_ne_nil_of_observedFact? {text fact : String} {signature : Signature}
    (parsed : ofText? text = some signature) (observed : signature.observedFact? = some fact) :
    Text.words fact ≠ [] := by
  intro none
  obtain ⟨opened, filled⟩ := Option.filter_eq_some_iff.mp observed
  have split := Text.afterOpening?_eq_some_iff.mp opened
  have blank : Text.Blank fact.toList := Text.wordsFrom_eq_nil_iff.mp (List.map_eq_nil_iff.mp none)
  have words : Text.words signature.text = ["observe-"] := by
    rw [split, Text.words, String.toList_append, Text.wordsFrom_append_of_blank blank]
    decide +kernel
  have again := Signature.ofText?_text parsed
  rw [ofText?, words, Option.some.injEq] at again
  rw [← again] at split
  have empty : fact = "" := by simpa [Signature.text] using split.symm
  simp [empty] at filled

theorem TraceLine.Observes.words_ne_nil {line : TraceLine} {fact : String}
    (observes : line.Observes fact) : Text.words fact ≠ [] := by
  obtain ⟨signature, token, observed⟩ := observes
  obtain ⟨text, -, parsed⟩ := TraceLine.actionText?_eq_some token
  exact Signature.words_ne_nil_of_observedFact? parsed observed

/-- What an edge of the graph may have as its record. -/
inductive Origin (domain : Domain) (block : List TraceLine) (graph : PlanGraph) :
    String → Condition → Prop
  | tuple {node : Node} {tuples : List ConditionTuple} {head : String} {arguments : List String}
      {condition : Condition} : node ∈ graph.nodes →
      domain.preconditionTuples (Text.lowercase node.dispatch.name) = .ok tuples →
      head :: arguments ∈ tuples →
      groundTuple domain node.dispatch.parameters head arguments = .ok condition →
      Origin domain block graph (graph.nameFor condition.signature .condition) condition
  | outcome {line : TraceLine} {value : Bool} {fact : String} {condition : Condition} :
      line ∈ block → line.Observes fact →
      observationCondition domain fact value = .ok condition →
      Origin domain block graph (Reading.outcomeEdge value fact) condition

namespace Plan

variable {domain : Domain} {trace : String} {freeId : Nat} {plan : Plan} {edge : String}
  {record : Condition}

theorem noted_of_ofTrace (read : Plan.ofTrace domain trace freeId = .ok plan) :
    Noted domain (gatings (history domain freeId ((planBlock? trace).getD []))) plan.graph ∧
      Completed plan.graph plan.graph.nodes := by
  have noted : Noted domain (gatings []) ({ nextId := freeId } : Reading).graph := Noted.start
  rcases reads_of_ofTrace read with ⟨absent, rfl⟩ | ⟨block, final, announced, run, rfl⟩
  · rw [absent]
    exact ⟨noted, (Sound.start freeId).completed⟩
  · rw [announced]
    exact ⟨noted.foldlM (Governed.start freeId) run,
      (Sound.reads (Reading.Reads.start.foldlM run)).completed⟩

theorem origin_of_condition? (read : Plan.ofTrace domain trace freeId = .ok plan)
    (stored : plan.graph.condition? edge = some record) :
    Origin domain ((planBlock? trace).getD []) plan.graph edge record := by
  obtain ⟨noted, completed⟩ := noted_of_ofTrace read
  rw [noted.records.first, Option.map_eq_some_iff] at stored
  obtain ⟨first, found, rfl⟩ := stored
  have answered : plan.graph.holder first = edge := by simpa using List.find?_some found
  rcases mem_demandsOf (List.mem_of_find?_eq_some found) with
    ⟨node, among, demanded⟩ | ⟨value, fact, condition, gating, observed, rfl⟩
  · obtain ⟨tuples, head, arguments, tabled, stated, grounded, named⟩ :=
      exists_tuple_of_mem_tupleDemands demanded
    rw [← answered, PlanGraph.holder, named]
    exact .tuple among tabled stated grounded
  · obtain ⟨line, own, observes⟩ := exists_observes (mem_of_mem_gatings gating)
    rw [← answered, PlanGraph.holder, completed.nameFor_outcomeEdge]
    exact .outcome own observes observed

end Plan

/-- The record has the labels of its attribute, the predicate's if there are two. It is negative only
under the name of the negative outcome of a fact that an action of the block observes, and then states
the words of the fact. -/
structure Conforms (domain : Domain) (block : List TraceLine) (edge : String) (record : Condition) :
    Prop where
  labels : domain.predicates.find? record.name = some (record.values.map Binding.key) ∨
    domain.predicates.find? record.name = none ∧
      domain.functions.find? record.name = some (record.values.map Binding.key)
  negative : record.negative = true → ∃ line ∈ block, ∃ fact arguments,
    line.Observes fact ∧ edge = Reading.outcomeEdge false fact ∧
    Text.words fact = record.name :: arguments ∧
    ∀ (position : Nat) (binding : Binding), record.values[position]? = some binding →
      binding.value = arguments[position]?.getD ""

theorem Origin.conforms {domain : Domain} {block : List TraceLine} {graph : PlanGraph}
    {edge : String} {record : Condition} (origin : Origin domain block graph edge record) :
    Conforms domain block edge record := by
  cases origin with
  | tuple _ _ _ grounded =>
      refine ⟨Domain.attributeLabels_eq_ok_iff.mp (Demanded.tuple grounded).labels, ?_⟩
      intro negative
      rw [negative_groundTuple grounded] at negative
      cases negative
  | @outcome line value fact _ own observes observed =>
      refine ⟨Domain.attributeLabels_eq_ok_iff.mp (Demanded.observation observed).labels, ?_⟩
      intro negative
      obtain ⟨name, arguments, words⟩ := List.exists_cons_of_ne_nil observes.words_ne_nil
      unfold observationCondition at observed
      rw [words] at observed
      dsimp only at observed
      split at observed
      · cases observed
      · cases observed
        have refuted : value = false := by simpa using negative
        rw [refuted]
        refine ⟨line, own, fact, arguments, observes, rfl, words, ?_⟩
        intro position binding found
        rw [getElem?_bindLabels, Option.map_eq_some_iff] at found
        obtain ⟨label, -, rfl⟩ := found
        rfl

theorem Plan.conforms_of_ofTrace {domain : Domain} {trace : String} {freeId : Nat} {plan : Plan}
    {edge : String} {record : Condition} (read : Plan.ofTrace domain trace freeId = .ok plan)
    (stored : plan.graph.condition? edge = some record) :
    Conforms domain ((planBlock? trace).getD []) edge record :=
  (origin_of_condition? read stored).conforms

theorem detour_conforms : ∃ plan record,
    Plan.ofTrace .rooms detourTrace 0 = .ok plan ∧
    plan.graph.condition? "observe-edge-false-at r a" = some record ∧ record.negative = true ∧
    record.values = [⟨"r", "r"⟩, ⟨"l", "a"⟩] ∧
    Conforms .rooms ((planBlock? detourTrace).getD []) "observe-edge-false-at r a" record := by
  have stored : ∃ plan ∈ (Plan.ofTrace .rooms detourTrace 0).toOption,
      plan.graph.condition? "observe-edge-false-at r a" =
        some ⟨.fact, "at", true, [⟨"r", "r"⟩, ⟨"l", "a"⟩]⟩ := by decide +kernel
  obtain ⟨plan, given, recorded⟩ := stored
  have read := mem_toOption given
  exact ⟨plan, _, read, recorded, rfl, rfl, Plan.conforms_of_ofTrace read recorded⟩

end ContingentPlan
