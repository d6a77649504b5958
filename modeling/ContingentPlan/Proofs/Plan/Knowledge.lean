import ContingentPlan.Proofs.Plan.Gating
import ContingentPlan.Proofs.Resolution

/-!
What the actions of a plan wait for. Every requirement of a node is answered with a condition edge into
the node, and the edge records the first requirement of the whole plan that was answered with it. A
requirement has its own record where all the preconditions that share its edge are plain; two ground
forms that are written alike share an edge whatever they state.
-/

namespace ContingentPlan

def gatings : List Event → List Reading.Gating
  | [] => []
  | .action _ :: past => gatings past ++ [gatingAfter past]
  | .shed :: past => gatings past
  | .turn :: past => gatings past

theorem Reading.Steered.gatings_eq {line : TraceLine} {reading after : Reading}
    (steered : Steered line reading after) (past : List Event) :
    gatings ((reading.event? line).toList ++ past) = gatings past := by
  unfold Reading.event?
  split
  · rename_i signature token
    exact absurd token (steered.silent signature)
  · rfl
  · split
    · rfl
    · rfl
  · rfl

namespace Reading.Gating

def demand? (domain : Domain) : Gating → Option Demand
  | free => none
  | missing => none
  | outcome value fact =>
      match observationCondition domain fact value with
      | .ok condition => some { name := outcomeEdge value fact, condition }
      | .error _ => none

def Observes (domain : Domain) : Gating → Prop
  | free => True
  | missing => True
  | outcome value fact => ∃ condition, observationCondition domain fact value = .ok condition

end Reading.Gating

/-- All that a node requires, by its preconditions and then by its gating. -/
def Node.demands (domain : Domain) (node : Node) (gating : Reading.Gating) : List Demand :=
  node.tupleDemands domain ++ (gating.demand? domain).toList

def demandsOf (domain : Domain) (nodes : List Node) (gatings : List Reading.Gating) : List Demand :=
  (nodes.zip gatings).flatMap fun gated => gated.1.demands domain gated.2

theorem Informs.gate {domain : Domain} {earlier own : List Demand} {graph after : PlanGraph}
    {node final : Node} {gating : Reading.Gating} (informs : Informs earlier own graph node)
    (gates : Reading.Gates domain graph node gating after final) :
    gating.Observes domain ∧
      Informs earlier (own ++ (gating.demand? domain).toList) after final := by
  cases gates with
  | free => exact ⟨trivial, by simpa [Reading.Gating.demand?] using informs⟩
  | missing => exact ⟨trivial, by simpa [Reading.Gating.demand?] using informs⟩
  | @outcome value fact condition observed =>
      refine ⟨⟨condition, observed⟩, ?_⟩
      simp only [Reading.Gating.demand?, observed, Option.toList_some]
      exact informs.register { name := Reading.outcomeEdge value fact, condition }

theorem keeps_foldl_connect (names : List String) (sink : Nat) (graph : PlanGraph) :
    Keeps graph (names.foldl (·.connect · sink) graph) ∧
      (names.foldl (·.connect · sink) graph).condition? = graph.condition? := by
  induction names generalizing graph with
  | nil => exact ⟨.refl, rfl⟩
  | cons name names ih =>
      obtain ⟨keeps, conditions⟩ := ih (graph.connect name sink)
      exact ⟨(Keeps.connect name sink).trans keeps, conditions⟩

structure Informed (domain : Domain) (graph : PlanGraph) (node : Node) (gating : Reading.Gating) :
    Prop where
  grounded : node.Grounded domain
  observes : gating.Observes domain
  waits : ∀ demand ∈ node.demands domain gating, graph.holder demand ∈ node.inputEdges

structure Noted (domain : Domain) (gatings : List Reading.Gating) (graph : PlanGraph) : Prop where
  covered : graph.nodes.length = gatings.length
  records : graph.Records (demandsOf domain graph.nodes gatings)
  informed : ∀ gated ∈ graph.nodes.zip gatings, Informed domain graph gated.1 gated.2

namespace Noted

variable {domain : Domain} {gatings : List Reading.Gating} {past : List Event}
  {reading after : Reading} {line : TraceLine}

theorem start : Noted domain [] ∅ where
  covered := rfl
  records := .empty
  informed := by
    intro gated member
    cases member

theorem act (noted : Noted domain gatings reading.graph) {number : Nat} {signature : Signature}
    {parameters : List Binding} {graph : PlanGraph} {node : Node}
    (acted : Reading.Acted domain number signature reading after parameters graph node) :
    Noted domain (gatings ++ [reading.gating]) after.graph := by
  obtain ⟨connected, conditions⟩ :=
    keeps_foldl_connect reading.parents reading.nextId reading.graph
  have outfitted : Keeps reading.graph reading.outfitted := connected.trans (.addActionEdge _ _)
  obtain ⟨grounded, resolving⟩ := (noted.records.keep outfitted conditions).resolve acted.resolved
  obtain ⟨observes, informs⟩ := resolving.toInforms.gate acted.gates
  have keeps : Keeps reading.graph after.graph := by
    rw [acted.after_eq]
    exact (outfitted.trans acted.requires.keeps).trans (.addNode node)
  have dispatch : node.dispatch = (reading.draft signature parameters).dispatch :=
    acted.requires.node_kept.2.2.2
  have grounds : node.Grounded domain := by
    rw [Node.Grounded, dispatch]
    exact grounded
  have own : node.demands domain reading.gating =
      (reading.draft signature parameters).tupleDemands domain ++
        (reading.gating.demand? domain).toList := by
    rw [Node.demands, Node.tupleDemands, dispatch]
    rfl
  rw [← own] at informs
  have nodes := acted.nodes_after
  have zipped : after.graph.nodes.zip (gatings ++ [reading.gating]) =
      reading.graph.nodes.zip gatings ++ [(node, reading.gating)] := by
    rw [nodes, List.zip_append noted.covered]
    rfl
  have holders : ∀ demand, after.graph.holder demand = graph.holder demand := by
    intro demand
    rw [acted.after_eq]
    rfl
  constructor
  · simp [nodes, noted.covered]
  · rw [demandsOf, zipped, List.flatMap_append, List.flatMap_singleton, acted.after_eq]
    exact informs.records.keep (.addNode node) rfl
  · intro gated member
    rw [zipped] at member
    rcases mem_append_singleton.mp member with older | newest
    · have before := noted.informed gated older
      refine ⟨before.grounded, before.observes, ?_⟩
      intro demand demanded
      have known : demand ∈ demandsOf domain reading.graph.nodes gatings :=
        List.mem_flatMap.mpr ⟨gated, older, demanded⟩
      rw [keeps.holder_eq (noted.records.settled demand known)]
      exact before.waits demand demanded
    · rw [newest]
      refine ⟨grounds, observes, ?_⟩
      intro demand demanded
      rw [holders]
      exact informs.waits demand demanded

theorem stepped (noted : Noted domain (ContingentPlan.gatings past) reading.graph)
    (governed : Governed past reading) (stepped : Reading.Stepped domain line reading after) :
    Noted domain (ContingentPlan.gatings ((reading.event? line).toList ++ past)) after.graph := by
  rcases stepped.acted_or_steered with ⟨_, _, _, _, token, acted⟩ | steered
  · rw [Reading.event?, token]
    have added := noted.act acted
    rw [governed.gating] at added
    exact added
  · rw [steered.gatings_eq, steered.graph]
    exact noted

theorem foldlM (noted : Noted domain (ContingentPlan.gatings past) reading.graph)
    (governed : Governed past reading) {lines : List TraceLine}
    (run : lines.foldlM (Reading.step domain) reading = .ok after) :
    Noted domain (ContingentPlan.gatings (reading.remember domain past lines)) after.graph := by
  induction lines generalizing past reading with
  | nil =>
      cases run
      exact noted
  | cons line lines ih =>
      rw [List.foldlM_cons, except_bind_eq_ok] at run
      obtain ⟨middle, step, rest⟩ := run
      have stepped := Reading.stepped_of_step step
      rw [Reading.remember, step]
      exact ih (noted.stepped governed stepped) (governed.stepped stepped) rest

end Noted

/-- The node waits on the edge that the demand is answered with, and the edge records the first one of
all the `demands` that it answers. -/
structure WaitsFor (graph : PlanGraph) (demands : List Demand) (node : Node) (demand : Demand) :
    Prop where
  input : graph.holder demand ∈ node.inputEdges
  edge : ∃ edge, graph.edge? (graph.holder demand) = some edge ∧ edge.kind = .condition ∧
    node.id ∈ edge.sinks
  record : ∃ first,
    demands.find? (fun other => graph.holder other = graph.holder demand) = some first ∧
    graph.condition? (graph.holder demand) = some first.condition

def PlanGraph.Represents (graph : PlanGraph) (node : Node) (condition : Condition) : Prop :=
  ∃ name ∈ node.inputEdges, ∃ edge stored, graph.edge? name = some edge ∧ edge.kind = .condition ∧
    graph.condition? name = some stored ∧ stored.name = condition.name ∧
    stored.values = condition.values ∧ stored.negative = condition.negative

inductive Demand.Arises (domain : Domain) (nodes : List Node) : Demand → Prop
  | tuple {node : Node} {demand : Demand} : node ∈ nodes → demand ∈ node.tupleDemands domain →
      Arises domain nodes demand
  | outcome {value : Bool} {fact : String} {condition : Condition} :
      observationCondition domain fact value = .ok condition →
      Arises domain nodes { name := Reading.outcomeEdge value fact, condition }

theorem exists_tuple_of_mem_tupleDemands {domain : Domain} {node : Node} {demand : Demand}
    (member : demand ∈ node.tupleDemands domain) : ∃ tuples head arguments,
      domain.preconditionTuples (Text.lowercase node.dispatch.name) = .ok tuples ∧
      head :: arguments ∈ tuples ∧
      groundTuple domain node.dispatch.parameters head arguments = .ok demand.condition ∧
      demand.name = demand.condition.signature := by
  unfold Node.tupleDemands at member
  split at member
  · rename_i tuples found
    obtain ⟨tuple, among, grounded⟩ := List.mem_filterMap.mp member
    cases tuple with
    | nil => cases grounded
    | cons head arguments =>
        rw [tupleDemand?] at grounded
        split at grounded
        · rename_i condition succeeds
          cases grounded
          exact ⟨tuples, head, arguments, found, among, succeeds, rfl⟩
        · cases grounded
  · cases member

theorem mem_tupleDemands {domain : Domain} {node : Node} {demand : Demand}
    (member : demand ∈ node.tupleDemands domain) : ∃ head arguments,
      groundTuple domain node.dispatch.parameters head arguments = .ok demand.condition ∧
      demand.name = demand.condition.signature := by
  obtain ⟨_, head, arguments, _, _, stated⟩ := exists_tuple_of_mem_tupleDemands member
  exact ⟨head, arguments, stated⟩

theorem mem_demandsOf {domain : Domain} {nodes : List Node} {gatings : List Reading.Gating}
    {demand : Demand} (member : demand ∈ demandsOf domain nodes gatings) :
    (∃ node ∈ nodes, demand ∈ node.tupleDemands domain) ∨
    ∃ value fact condition, .outcome value fact ∈ gatings ∧
      observationCondition domain fact value = .ok condition ∧
      demand = { name := Reading.outcomeEdge value fact, condition } := by
  obtain ⟨⟨node, gating⟩, gated, own⟩ := List.mem_flatMap.mp member
  obtain ⟨among, latter⟩ := List.of_mem_zip gated
  rcases List.mem_append.mp own with precondition | observed
  · exact Or.inl ⟨node, among, precondition⟩
  · cases gating with
    | free => cases observed
    | missing => cases observed
    | outcome value fact =>
        simp only [Reading.Gating.demand?] at observed
        split at observed
        · rename_i condition succeeds
          exact Or.inr ⟨value, fact, condition, latter, succeeds, by simpa using observed⟩
        · cases observed

theorem arises_of_mem {domain : Domain} {nodes : List Node} {gatings : List Reading.Gating}
    {demand : Demand} (member : demand ∈ demandsOf domain nodes gatings) :
    demand.Arises domain nodes := by
  rcases mem_demandsOf member with ⟨node, among, demanded⟩ | ⟨_, _, _, _, observed, rfl⟩
  · exact .tuple among demanded
  · exact .outcome observed

/-- Where preconditions are plain, demands that are answered with the same edge state the same. -/
theorem Completed.condition_eq_of_holder {graph : PlanGraph} {nodes : List Node} {domain : Domain}
    (completed : Completed graph nodes) {first second : Demand}
    (same : graph.holder first = graph.holder second)
    (plain : ∀ node ∈ nodes, ∀ other ∈ node.tupleDemands domain,
      graph.holder other = graph.holder second → other.condition.Plain)
    (ofFirst : first.Arises domain nodes) (ofSecond : second.Arises domain nodes) :
    first.condition.name = second.condition.name ∧
      first.condition.values = second.condition.values ∧
      first.condition.negative = second.condition.negative := by
  cases ofFirst with
  | @tuple node _ stored member =>
      have plainFirst := plain node stored first member same
      obtain ⟨_, _, grounded, named⟩ := mem_tupleDemands member
      cases ofSecond with
      | @tuple node _ stored member =>
          have plainSecond := plain node stored second member rfl
          obtain ⟨_, _, groundedToo, namedToo⟩ := mem_tupleDemands member
          rw [PlanGraph.holder, PlanGraph.holder, named, namedToo] at same
          have demanded : Demanded domain _ first.condition := .tuple grounded
          have demandedToo : Demanded domain _ second.condition := .tuple groundedToo
          have alike := demanded.sameRequirement demandedToo plainFirst.worded plainSecond.worded
            (completed.signature_eq_of_nameFor plainFirst plainSecond same)
          refine ⟨alike.1, demanded.values_eq demandedToo alike, ?_⟩
          rw [negative_groundTuple grounded, negative_groundTuple groundedToo]
      | @outcome value fact _ _ =>
          rw [PlanGraph.holder, PlanGraph.holder, named, completed.nameFor_outcomeEdge] at same
          exact absurd same (completed.nameFor_signature_ne_outcomeEdge plainFirst value fact)
  | @outcome value fact condition observed =>
      cases ofSecond with
      | @tuple node _ stored member =>
          have plainSecond := plain node stored second member rfl
          obtain ⟨_, _, _, named⟩ := mem_tupleDemands member
          rw [PlanGraph.holder, PlanGraph.holder, named, completed.nameFor_outcomeEdge] at same
          exact absurd same.symm (completed.nameFor_signature_ne_outcomeEdge plainSecond value fact)
      | @outcome other otherFact otherCondition observedToo =>
          rw [PlanGraph.holder, PlanGraph.holder, completed.nameFor_outcomeEdge,
            completed.nameFor_outcomeEdge] at same
          obtain ⟨rfl, rfl⟩ := outcomeEdge_injective same
          rw [observed, Except.ok.injEq] at observedToo
          rw [observedToo]
          exact ⟨rfl, rfl, rfl⟩

structure Knowing (domain : Domain) (graph : PlanGraph) (gatings : List Reading.Gating) : Prop where
  covered : graph.nodes.length = gatings.length
  grounded : ∀ gated ∈ graph.nodes.zip gatings,
    gated.1.Grounded domain ∧ gated.2.Observes domain
  waits : ∀ gated ∈ graph.nodes.zip gatings, ∀ demand ∈ gated.1.demands domain gated.2,
    WaitsFor graph (demandsOf domain graph.nodes gatings) gated.1 demand
  represents : ∀ gated ∈ graph.nodes.zip gatings, ∀ demand ∈ gated.1.demands domain gated.2,
    (∀ node ∈ graph.nodes, ∀ other ∈ node.tupleDemands domain,
      graph.holder other = graph.holder demand → other.condition.Plain) →
    graph.Represents gated.1 demand.condition

namespace Noted

variable {domain : Domain} {gatings : List Reading.Gating} {reading : Reading}

theorem waitsFor (noted : Noted domain gatings reading.graph) (sound : Sound reading)
    {gated : Node × Reading.Gating} (member : gated ∈ reading.graph.nodes.zip gatings)
    {demand : Demand} (demanded : demand ∈ gated.1.demands domain gated.2) :
    WaitsFor reading.graph (demandsOf domain reading.graph.nodes gatings) gated.1 demand := by
  have input := (noted.informed gated member).waits demand demanded
  have fed := (sound.linked.input_iff gated.1 (List.of_mem_zip member).1 _).mp input
  obtain ⟨edge, held, sink⟩ := PlanGraph.mem_sinksAt_iff.mp fed
  have among : demand ∈ demandsOf domain reading.graph.nodes gatings :=
    List.mem_flatMap.mpr ⟨gated, member, demanded⟩
  have answered : ((demandsOf domain reading.graph.nodes gatings).find? fun other =>
      reading.graph.holder other = reading.graph.holder demand).isSome := by
    rw [List.find?_isSome]
    exact ⟨demand, among, by simp⟩
  obtain ⟨first, found⟩ := Option.isSome_iff_exists.mp answered
  constructor
  · exact input
  · exact ⟨edge, held, PlanGraph.kind_of_admits (reading.graph.nameFor_admits _ _) held, sink⟩
  · exact ⟨first, found, by rw [noted.records.first, found, Option.map_some]⟩

theorem knowing (noted : Noted domain gatings reading.graph) (sound : Sound reading) :
    Knowing domain reading.graph gatings where
  covered := noted.covered
  grounded := fun gated member =>
    ⟨(noted.informed gated member).grounded, (noted.informed gated member).observes⟩
  waits := fun _ member _ demanded => noted.waitsFor sound member demanded
  represents := by
    intro gated member demand demanded plain
    obtain ⟨input, ⟨edge, held, kind, -⟩, first, found, recorded⟩ :=
      noted.waitsFor sound member demanded
    have same : reading.graph.holder first = reading.graph.holder demand := by
      simpa using List.find?_some found
    have alike := sound.completed.condition_eq_of_holder same plain
      (arises_of_mem (List.mem_of_find?_eq_some found))
      (arises_of_mem (List.mem_flatMap.mpr ⟨gated, member, demanded⟩))
    exact ⟨_, input, edge, first.condition, held, kind, recorded, alike⟩

end Noted

theorem Plan.knowing_of_ofTrace {domain : Domain} {trace : String} {freeId : Nat} {plan : Plan}
    (read : Plan.ofTrace domain trace freeId = .ok plan) :
    Knowing domain plan.graph
      (gatings (history domain freeId ((planBlock? trace).getD []))) := by
  have noted : Noted domain (gatings []) ({ nextId := freeId } : Reading).graph := Noted.start
  rcases Plan.reads_of_ofTrace read with ⟨absent, rfl⟩ | ⟨block, final, announced, run, rfl⟩
  · rw [absent]
    exact noted.knowing (Sound.start freeId)
  · rw [announced]
    exact (noted.foldlM (Governed.start freeId) run).knowing
      (Sound.reads (Reading.Reads.start.foldlM run))

def detourGatings : List Reading.Gating :=
  [.free, .outcome true "at r a", .outcome false "at r a", .free]

theorem detour_knowing : ∃ plan, Plan.ofTrace .rooms detourTrace 0 = .ok plan ∧
    plan.graph.nodes.length = 4 ∧ Knowing .rooms plan.graph detourGatings ∧
    ∀ gated ∈ plan.graph.nodes.zip detourGatings, ∀ demand ∈ gated.1.demands .rooms gated.2,
      plan.graph.Represents gated.1 demand.condition := by
  have plain : ∀ plan ∈ (Plan.ofTrace .rooms detourTrace 0).toOption, ∀ node ∈ plan.graph.nodes,
      ∀ other ∈ node.tupleDemands .rooms,
        other.condition.Worded ∧ '-' ∉ other.condition.signature.toList := by decide +kernel
  have gated : gatings (history .rooms 0 ((planBlock? detourTrace).getD [])) = detourGatings := by
    decide +kernel
  obtain ⟨-, plan, -, -, read, -, count⟩ := exists_detour
  have knowing := Plan.knowing_of_ofTrace read
  rw [gated] at knowing
  refine ⟨plan, read, count, knowing, ?_⟩
  intro gated member demand demanded
  apply knowing.represents gated member demand demanded
  intro node among other precondition _
  obtain ⟨worded, dashless⟩ := plain plan (by simp [read, Except.toOption]) node among other
    precondition
  exact Condition.plain_of_dashless worded dashless

def Domain.floods : Domain :=
  (((((({} : Domain).addPredicate "wet" []).addPredicate "observe-edge-true-wet" []).addOperator
    "observe-wet" []).addOperator "close" []).addPrecondition "close" ["observe-edge-true-wet"])

def floodTrace : String :=
  "\n".intercalate ["ff: found legal plan as follows", "0: observe-wet", "1: close", "time spent: 0"]

/-- An attribute may have the name of an outcome: the outcome then has no record of its own. -/
theorem flood_unrepresented : ∃ plan gated demand, Plan.ofTrace .floods floodTrace 0 = .ok plan ∧
    gated ∈ plan.graph.nodes.zip
      (gatings (history .floods 0 ((planBlock? floodTrace).getD []))) ∧
    demand ∈ gated.1.demands .floods gated.2 ∧
    ¬ plan.graph.Represents gated.1 demand.condition := by
  have evaluated : ∃ plan ∈ (Plan.ofTrace .floods floodTrace 0).toOption,
      ∃ gated ∈ plan.graph.nodes.zip
        (gatings (history .floods 0 ((planBlock? floodTrace).getD []))),
      ∃ demand ∈ gated.1.demands .floods gated.2, ∀ name ∈ gated.1.inputEdges,
      ∀ stored ∈ plan.graph.condition? name, stored.name ≠ demand.condition.name := by
    decide +kernel
  obtain ⟨plan, given, gated, member, demand, demanded, other⟩ := evaluated
  refine ⟨plan, gated, demand, mem_toOption given, member, demanded, ?_⟩
  rintro ⟨name, input, edge, stored, -, -, recorded, same, -⟩
  exact other name input stored recorded same

end ContingentPlan
