import ContingentPlan.Proofs.Graph.Supply
import ContingentPlan.Proofs.Grounding
import ContingentPlan.Proofs.Plan.Failure
import ContingentPlan.Proofs.Resolution

/-!
Resolving nodes again and in any order. What a node requires depends on the domain and on its parameters
alone, and the edges that answer depend on the action edges of the graph alone. So a node that is resolved
again finds all its edges in place, and other nodes and other orders of its tuples give the same edges.
-/

namespace ContingentPlan

def Node.required (domain : Domain) (node : Node) : List Condition :=
  distinctRequirements ((node.tupleDemands domain).map Demand.condition)

theorem GroundForms.conditions_demands {domain : Domain} {parameters : List Binding}
    {tuples : List ConditionTuple} {grounded : List Condition}
    (forms : GroundForms domain parameters tuples grounded) :
    (tuples.filterMap (tupleDemand? domain parameters)).map Demand.condition = grounded := by
  induction tuples generalizing grounded with
  | nil =>
      cases forms
      rfl
  | cons tuple tuples ih =>
      cases tuple with
      | nil => exact ih (by simpa [GroundForms] using forms)
      | cons head arguments =>
          rw [GroundForms, List.filter_cons_of_pos (by simp)] at forms
          cases forms with
          | cons form rest =>
              have succeeds := groundTuple_eq_ok_iff.mpr form
              simp [tupleDemand?, succeeds, ih rest]

namespace PlanGraph

variable {graph after : PlanGraph} {domain : Domain} {node second : Node}

theorem resolve_eq_foldl (complete : (graph.resolve domain node).fault = none) :
    graph.resolve domain node =
      ((node.tupleDemands domain).map Demand.condition).foldl Resolution.require { node, graph } := by
  unfold resolve at complete ⊢
  cases found : domain.preconditionTuples (Text.lowercase node.dispatch.name) with
  | error fault => simp [found] at complete
  | ok tuples =>
      rw [found] at complete
      obtain ⟨grounded, forms, same⟩ := Resolution.addTuples_eq_foldl complete
      rw [Node.tupleDemands, found]
      dsimp only
      rw [forms.conditions_demands, same]

def answered (graph : PlanGraph) (domain : Domain) (node : Node) : Resolution where
  node := (graph.answers (node.required domain)).foldl Node.addInput node
  graph := graph.feed node.id (node.required domain)
  requirements := (node.required domain).map fun condition =>
    { edge := graph.nameFor condition.signature .condition, condition }

theorem resolve_eq_answered (complete : (graph.resolve domain node).fault = none) :
    graph.resolve domain node = graph.answered domain node := by
  have attaches := (Resolution.Attaches.start graph node).foldl_require
    ((node.tupleDemands domain).map Demand.condition)
  have conditions := @Resolution.conditions_foldl_require { node, graph }
    ((node.tupleDemands domain).map Demand.condition)
  have lacking : (distinctRequirements ((node.tupleDemands domain).map Demand.condition)).filter
      (({ node, graph } : Resolution).Lacks ·) = node.required domain := by
    simp [Resolution.Lacks, Node.required]
  rw [lacking, List.map_nil, List.nil_append, ← resolve_eq_foldl complete] at conditions
  rw [← resolve_eq_foldl complete] at attaches
  have requirements : (graph.resolve domain node).requirements =
      (graph.answered domain node).requirements := by
    rw [answered, ← conditions, List.map_map]
    refine (List.map_id _).symm.trans (List.map_congr_left fun requirement member => ?_)
    rw [Function.comp_apply, ← attaches.edges requirement member]
    rfl
  have inputs : (graph.resolve domain node).node = (graph.answered domain node).node := by
    rw [attaches.inputs, requirements, answered, List.map_map]
    rfl
  have fed : (graph.resolve domain node).graph = (graph.answered domain node).graph := by
    rw [attaches.stored, requirements, answered, List.foldl_map]
    rfl
  generalize graph.resolve domain node = resolution at complete requirements inputs fed
  obtain ⟨_, _, _, _⟩ := resolution
  cases complete
  cases requirements
  cases inputs
  cases fed
  rfl

def resolveAll (graph : PlanGraph) (resolutions : List (Domain × Node)) : PlanGraph :=
  resolutions.foldl (fun graph resolution => (graph.resolve resolution.1 resolution.2).graph) graph

theorem admits_resolveAll (graph : PlanGraph) (resolutions : List (Domain × Node)) :
    (graph.resolveAll resolutions).admits .condition = graph.admits .condition := by
  induction resolutions generalizing graph with
  | nil => rfl
  | cons resolution resolutions ih =>
      exact (ih _).trans (graph.requires_resolve resolution.1 resolution.2).admits_eq

theorem Supplies.resolveAll {name : String} {sink : Nat} (supplies : graph.Supplies name sink)
    (resolutions : List (Domain × Node)) : (graph.resolveAll resolutions).Supplies name sink := by
  induction resolutions generalizing graph with
  | nil => exact supplies
  | cons resolution resolutions ih =>
      exact ih (supplies.requires (graph.requires_resolve resolution.1 resolution.2))

theorem fault_resolve_congr (graph after : PlanGraph) (domain : Domain) {final : Node}
    (same : final.dispatch = node.dispatch) :
    (after.resolve domain final).fault = none ↔ (graph.resolve domain node).fault = none := by
  rw [fault_resolve_eq_none_iff, fault_resolve_eq_none_iff, same]

theorem required_congr (domain : Domain) {final : Node} (same : final.dispatch = node.dispatch) :
    final.required domain = node.required domain := by
  rw [Node.required, Node.required, Node.tupleDemands, Node.tupleDemands, same]

/-- A resolved node that is supplied with all it requires is resolved again to no effect. -/
theorem resolve_resolved (complete : (graph.resolve domain node).fault = none)
    (admitted : after.admits .condition = graph.admits .condition)
    (supplied : ∀ condition ∈ node.required domain, after.Supplies condition.signature node.id) :
    after.resolve domain (graph.resolve domain node).node =
      { graph.resolve domain node with graph := after } := by
  obtain ⟨id, -, -, dispatch⟩ := (graph.requires_resolve domain node).node_kept
  have completeToo := (fault_resolve_congr graph after domain dispatch).mpr complete
  rw [resolve_eq_answered completeToo]
  rw [resolve_eq_answered complete] at id dispatch ⊢
  have inputs : (after.answers (node.required domain)).foldl Node.addInput
      (graph.answered domain node).node = (graph.answered domain node).node := by
    apply foldl_addInput_of_subset
    intro name listed
    rw [answers_congr admitted] at listed
    exact mem_inputEdges_foldl_addInput.mpr (Or.inr listed)
  have edges : ((node.required domain).map fun condition =>
      ({ edge := after.nameFor condition.signature .condition, condition } : Requirement)) =
        (graph.answered domain node).requirements :=
    List.map_congr_left fun condition _ => by rw [nameFor_congr admitted condition.signature]
  rw [answered, required_congr domain dispatch, id, inputs, feed_of_supplies supplied, edges]
  rfl

theorem resolve_resolveAll_resolve (complete : (graph.resolve domain node).fault = none)
    (between : List (Domain × Node)) :
    ((graph.resolve domain node).graph.resolveAll between).resolve domain
        (graph.resolve domain node).node =
      { graph.resolve domain node with
        graph := (graph.resolve domain node).graph.resolveAll between } := by
  apply resolve_resolved complete
  · rw [admits_resolveAll, (graph.requires_resolve domain node).admits_eq]
  · intro condition member
    apply Supplies.resolveAll
    rw [resolve_eq_answered complete]
    exact graph.supplies_feed member

theorem node_resolve_congr (complete : (graph.resolve domain node).fault = none)
    (admitted : after.admits .condition = graph.admits .condition) :
    (after.resolve domain node).node = (graph.resolve domain node).node := by
  have completeToo : (after.resolve domain node).fault = none :=
    (fault_resolve_congr graph after domain rfl).mpr complete
  rw [resolve_eq_answered complete, resolve_eq_answered completeToo, answered, answered,
    answers_congr admitted]

theorem sameEdges_resolve (complete : (graph.resolve domain node).fault = none)
    (completeToo : (graph.resolve domain second).fault = none) :
    SameEdges ((graph.resolve domain node).graph.resolve domain second).graph
      ((graph.resolve domain second).graph.resolve domain node).graph := by
  rw [resolve_eq_answered
      ((fault_resolve_congr graph (graph.resolve domain node).graph domain rfl).mpr completeToo),
    resolve_eq_answered
      ((fault_resolve_congr graph (graph.resolve domain second).graph domain rfl).mpr complete),
    resolve_eq_answered complete, resolve_eq_answered completeToo]
  exact graph.sameEdges_feed _ _ _ _

end PlanGraph

theorem mem_of_mem_distinctRequirements {conditions : List Condition} {condition : Condition}
    (kept : condition ∈ distinctRequirements conditions) : condition ∈ conditions := by
  induction conditions with
  | nil => exact kept
  | cons first conditions ih =>
      rcases List.mem_cons.mp kept with rfl | later
      · exact List.mem_cons_self
      · exact List.mem_cons_of_mem _ (ih (List.mem_of_mem_filter later))

theorem exists_mem_distinctRequirements {conditions : List Condition} {condition : Condition}
    (stated : condition ∈ conditions) :
    ∃ other ∈ distinctRequirements conditions, condition.SameRequirement other := by
  have once := filter_distinctRequirements stated
  obtain ⟨other, member⟩ := List.exists_mem_of_length_pos (by rw [once]; exact Nat.one_pos)
  obtain ⟨kept, same⟩ := List.mem_filter.mp member
  exact ⟨other, kept, of_decide_eq_true same⟩

namespace Domain

/-- The domains have the same attributes, and the same precondition tuples up to their order. -/
structure Reorders (domain other : Domain) : Prop where
  predicates : other.predicates = domain.predicates
  functions : other.functions = domain.functions
  tuples : ∀ operator,
    Option.Rel List.Perm (domain.preconditions.find? operator) (other.preconditions.find? operator)

namespace Reorders

variable {domain other : Domain}

theorem cases (reorders : domain.Reorders other) (operator : String) :
    domain.preconditions.find? operator = none ∧ other.preconditions.find? operator = none ∨
    ∃ tuples shuffled, domain.preconditions.find? operator = some tuples ∧
      other.preconditions.find? operator = some shuffled ∧ tuples.Perm shuffled := by
  have related := reorders.tuples operator
  generalize domain.preconditions.find? operator = own at related ⊢
  generalize other.preconditions.find? operator = shuffled at related ⊢
  cases related with
  | none => exact Or.inl ⟨rfl, rfl⟩
  | some perm => exact Or.inr ⟨_, _, rfl, rfl, perm⟩

theorem symm (reorders : domain.Reorders other) : other.Reorders domain where
  predicates := reorders.predicates.symm
  functions := reorders.functions.symm
  tuples := by
    intro operator
    rcases reorders.cases operator with ⟨none, noneToo⟩ | ⟨tuples, shuffled, found, again, perm⟩
    · rw [none, noneToo]
      exact .none
    · rw [found, again]
      exact .some perm.symm

theorem declares_eq (reorders : domain.Reorders other) : other.declares = domain.declares := by
  funext name
  unfold declares isPredicate isFunction
  rw [reorders.predicates, reorders.functions]

theorem unmarkedAttribute_eq (reorders : domain.Reorders other) :
    unmarkedAttribute other = unmarkedAttribute domain := by
  unfold unmarkedAttribute
  rw [reorders.declares_eq]

theorem groundTuple_eq (reorders : domain.Reorders other) :
    groundTuple other = groundTuple domain := by
  unfold groundTuple attributeLabels isFunction
  rw [reorders.unmarkedAttribute_eq, reorders.predicates, reorders.functions]

theorem tupleDemands_perm (reorders : domain.Reorders other) (node : Node) :
    (node.tupleDemands domain).Perm (node.tupleDemands other) := by
  have demands : tupleDemand? other = tupleDemand? domain := by
    funext parameters tuple
    cases tuple with
    | nil => rfl
    | cons head arguments => rw [tupleDemand?, tupleDemand?, reorders.groundTuple_eq]
  unfold Node.tupleDemands preconditionTuples
  rcases reorders.cases (Text.lowercase (Text.lowercase node.dispatch.name)) with
    ⟨none, noneToo⟩ | ⟨tuples, shuffled, found, again, perm⟩
  · rw [none, noneToo]
  · rw [found, again, demands]
    exact perm.filterMap _

theorem fault_resolve (reorders : domain.Reorders other) {graph : PlanGraph} {node : Node}
    (complete : (graph.resolve domain node).fault = none) :
    (graph.resolve other node).fault = none := by
  have attributes : tupleAttribute? other = tupleAttribute? domain := by
    funext tuple
    cases tuple with
    | nil => rfl
    | cons head arguments => rw [tupleAttribute?, tupleAttribute?, reorders.unmarkedAttribute_eq]
  rw [PlanGraph.fault_resolve_eq_none_iff] at complete ⊢
  simp only [preconditionTuples_eq_ok_iff] at complete ⊢
  obtain ⟨tuples, found, declared⟩ := complete
  rcases reorders.cases (Text.lowercase (Text.lowercase node.dispatch.name)) with
    ⟨none, -⟩ | ⟨own, shuffled, ofDomain, again, perm⟩
  · rw [found] at none
    cases none
  · rw [found, Option.some.injEq] at ofDomain
    subst ofDomain
    refine ⟨shuffled, again, ?_⟩
    rw [firstUndeclared?, List.find?_eq_none] at declared ⊢
    intro name member
    rw [attributes, ← (perm.filterMap _).mem_iff] at member
    simpa [reorders.declares_eq] using declared name member

theorem of_insert {operator : String} {tuples shuffled : List ConditionTuple}
    (found : domain.preconditions.find? operator = some tuples) (perm : tuples.Perm shuffled) :
    domain.Reorders { domain with preconditions := domain.preconditions.insert operator shuffled } where
  predicates := rfl
  functions := rfl
  tuples := by
    intro other
    rw [Table.find?_insert]
    by_cases same : other = operator
    · rw [if_pos same, same, found]
      exact .some perm
    · rw [if_neg same]
      cases domain.preconditions.find? other with
      | none => exact .none
      | some others => exact .some .rfl

theorem answers_subset (reorders : domain.Reorders other) (graph : PlanGraph) (node : Node) :
    graph.answers (node.required domain) ⊆ graph.answers (node.required other) := by
  intro name member
  obtain ⟨condition, required, rfl⟩ := List.mem_map.mp member
  have stated := ((reorders.tupleDemands_perm node).map Demand.condition).subset
    (mem_of_mem_distinctRequirements required)
  obtain ⟨own, kept, same⟩ := exists_mem_distinctRequirements stated
  exact List.mem_map.mpr ⟨own, kept, by rw [same.signature_eq]⟩

theorem exists_added (reorders : domain.Reorders other) {graph : PlanGraph} {node : Node}
    (complete : (graph.resolve domain node).fault = none) : ∃ added reordered,
      (graph.resolve domain node).node.inputEdges = node.inputEdges ++ added ∧
      (graph.resolve other node).node.inputEdges = node.inputEdges ++ reordered ∧
      added.Perm reordered := by
  rw [PlanGraph.resolve_eq_answered complete,
    PlanGraph.resolve_eq_answered (reorders.fault_resolve complete)]
  obtain ⟨added, inputs, unique, mem_iff⟩ :=
    exists_added_inputs (graph.answers (node.required domain)) node
  obtain ⟨reordered, inputsToo, uniqueToo, mem_iffToo⟩ :=
    exists_added_inputs (graph.answers (node.required other)) node
  refine ⟨added, reordered, inputs, inputsToo, (List.perm_ext_iff_of_nodup unique uniqueToo).mpr ?_⟩
  intro name
  rw [mem_iff, mem_iffToo]
  exact and_congr_left fun _ =>
    ⟨fun member => reorders.answers_subset graph node member,
      fun member => reorders.symm.answers_subset graph node member⟩

end Reorders

end Domain

/-- Whether a node is resolved, and into which edges it then waits on, depends neither on what else has
been resolved nor on the order of its preconditions. -/
theorem PlanGraph.resolve_in_any_order (graph : PlanGraph) (domain : Domain) (node : Node) :
    (∀ other, domain.Reorders other →
      ((graph.resolve other node).fault = none ↔ (graph.resolve domain node).fault = none)) ∧
    ((graph.resolve domain node).fault = none →
      (∀ between : List (Domain × Node),
        ((graph.resolve domain node).graph.resolveAll between).resolve domain
            (graph.resolve domain node).node =
          { graph.resolve domain node with
            graph := (graph.resolve domain node).graph.resolveAll between }) ∧
      (∀ other, domain.Reorders other → ∃ added reordered,
        (graph.resolve domain node).node.inputEdges = node.inputEdges ++ added ∧
        (graph.resolve other node).node.inputEdges = node.inputEdges ++ reordered ∧
        added.Perm reordered) ∧
      ∀ second : Node, (graph.resolve domain second).fault = none →
        ((graph.resolve domain node).graph.resolve domain second).fault = none ∧
        ((graph.resolve domain second).graph.resolve domain node).fault = none ∧
        ((graph.resolve domain node).graph.resolve domain second).node =
          (graph.resolve domain second).node ∧
        ((graph.resolve domain second).graph.resolve domain node).node =
          (graph.resolve domain node).node ∧
        SameEdges ((graph.resolve domain node).graph.resolve domain second).graph
          ((graph.resolve domain second).graph.resolve domain node).graph) := by
  refine ⟨fun other reorders => ⟨reorders.symm.fault_resolve, reorders.fault_resolve⟩, ?_⟩
  intro complete
  refine ⟨resolve_resolveAll_resolve complete, fun other reorders => reorders.exists_added complete, ?_⟩
  intro second completeToo
  exact ⟨(fault_resolve_congr graph _ domain rfl).mpr completeToo,
    (fault_resolve_congr graph _ domain rfl).mpr complete,
    node_resolve_congr completeToo (graph.requires_resolve domain node).admits_eq,
    node_resolve_congr complete (graph.requires_resolve domain second).admits_eq,
    sameEdges_resolve complete completeToo⟩

def Domain.shuffledDepot : Domain :=
  { Domain.depot with
    preconditions := Domain.depot.preconditions.insert "move"
      [["rload", "Cart"], ["AT", "r", "from"], ["road", "from"], ["rat", "R", "from"]] }

def depotGuest : Node where
  id := 5
  name := "Move"
  dispatch := { actionId := 5, name := "MOVE", parameters := [⟨"r", "van"⟩, ⟨"from", "b"⟩] }

theorem depot_in_any_order :
    Domain.depot.Reorders .shuffledDepot ∧
    ((∅ : PlanGraph).resolve .depot depotNode).fault = none ∧
    ((∅ : PlanGraph).resolve .depot depotGuest).fault = none ∧
    ((∅ : PlanGraph).resolve .shuffledDepot depotNode).fault = none ∧
    ((∅ : PlanGraph).resolve .depot depotNode).node.inputEdges =
      ["e3", "at cart b", "road b", "load cart"] ∧
    ((∅ : PlanGraph).resolve .shuffledDepot depotNode).node.inputEdges =
      ["e3", "load cart", "at cart b", "road b"] ∧
    (let first := (∅ : PlanGraph).resolve .depot depotNode
     let later := first.graph.resolveAll [(.depot, depotGuest), (.shuffledDepot, depotNode)]
     later.resolve .depot first.node = { first with graph := later }) ∧
    (∃ added reordered,
      ((∅ : PlanGraph).resolve .depot depotNode).node.inputEdges = "e3" :: added ∧
      ((∅ : PlanGraph).resolve .shuffledDepot depotNode).node.inputEdges = "e3" :: reordered ∧
      added.Perm reordered) ∧
    PlanGraph.SameEdges
      (((∅ : PlanGraph).resolve .depot depotNode).graph.resolve .depot depotGuest).graph
      (((∅ : PlanGraph).resolve .depot depotGuest).graph.resolve .depot depotNode).graph := by
  have tuples : Domain.depot.preconditions.find? "move" =
      some [["rat", "R", "from"], ["road", "from"], ["AT", "r", "from"], ["rload", "Cart"]] := by
    decide +kernel
  have reorders : Domain.depot.Reorders .shuffledDepot := .of_insert tuples (by decide)
  have complete : ((∅ : PlanGraph).resolve .depot depotNode).fault = none := by decide +kernel
  have completeToo : ((∅ : PlanGraph).resolve .depot depotGuest).fault = none := by decide +kernel
  obtain ⟨agrees, steady⟩ := PlanGraph.resolve_in_any_order ∅ .depot depotNode
  obtain ⟨repeated, reordered, exchanged⟩ := steady complete
  exact ⟨reorders, complete, completeToo, (agrees _ reorders).mpr complete, by decide +kernel,
    by decide +kernel, repeated _, reordered _ reorders, (exchanged depotGuest completeToo).2.2.2.2⟩

end ContingentPlan
