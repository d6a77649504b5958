import ContingentPlan.Proofs.Graph.Renumbering
import ContingentPlan.Proofs.Reading.Warnings
import ContingentPlan.Proofs.Resolution

/-!
The free id only numbers the nodes. Unless a precondition asks for an edge with a numbered name, a trace
that is read from a later free id gives the same plan with shifted ids, and it stops at the same fault.
-/

namespace ContingentPlan

def Signature.preconditionNames (domain : Domain) (signature : Signature) : List String :=
  match Reading.parameters domain signature with
  | .error _ => []
  | .ok parameters =>
      ((Reading.freshNode 0 signature parameters).tupleDemands domain).map Demand.name

def TraceLine.preconditionNames (domain : Domain) (line : TraceLine) : List String :=
  match line.token? with
  | some (.action signature) => signature.preconditionNames domain
  | _ => []

/-- The names that all preconditions of a trace's plan block ask for. -/
def requestedNames (domain : Domain) (trace : String) : List String :=
  ((planBlock? trace).getD []).flatMap (TraceLine.preconditionNames domain)

namespace Resolution

variable {domain : Domain} {resolution : Resolution} {shift : Nat}

def renumber (shift : Nat) (resolution : Resolution) : Resolution :=
  { resolution with
    node := resolution.node.renumber shift
    graph := resolution.graph.renumber shift }

theorem require_renumber (shift : Nat) (standard : resolution.graph.Standard) {condition : Condition}
    (plain : ¬ IsNumbered condition.signature) :
    (resolution.renumber shift).require condition = (resolution.require condition).renumber shift ∧
      (resolution.require condition).graph.Standard := by
  have stated : (resolution.renumber shift).requirements = resolution.requirements := rfl
  unfold require
  rw [stated]
  split
  · exact ⟨rfl, standard⟩
  · refine ⟨?_, standard.registerCondition plain _ condition⟩
    have graph := standard.renumber_registerCondition shift plain resolution.node.id
      condition
    have kept := renumberedName_of_not_isNumbered shift plain
    simp only [renumber, Node.id_renumber, Node.renumber_addInput, standard.answer_plain plain,
      standard.renumber.answer_plain plain, graph, kept]

theorem addTuples_renumber (standard : resolution.graph.Standard) {tuples : List ConditionTuple}
    (plain : ∀ demand ∈ tuples.filterMap (tupleDemand? domain resolution.node.dispatch.parameters),
      ¬ IsNumbered demand.name) :
    (resolution.renumber shift).addTuples domain tuples =
        (resolution.addTuples domain tuples).renumber shift ∧
      (resolution.addTuples domain tuples).graph.Standard := by
  induction tuples generalizing resolution with
  | nil => exact ⟨rfl, standard⟩
  | cons tuple tuples ih =>
      cases tuple with
      | nil => exact ih standard plain
      | cons head arguments =>
          have parameters : (resolution.renumber shift).node.dispatch.parameters =
              resolution.node.dispatch.parameters := rfl
          simp only [addTuples, parameters]
          cases grounded : groundTuple domain resolution.node.dispatch.parameters head arguments with
          | error fault => exact ⟨rfl, standard⟩
          | ok condition =>
              simp only [List.filterMap_cons, tupleDemand?, grounded, List.forall_mem_cons] at plain
              obtain ⟨same, still⟩ := require_renumber shift standard plain.1
              rw [← resolution.dispatch_require condition] at plain
              dsimp only
              rw [same]
              exact ih still plain.2

end Resolution

theorem PlanGraph.resolve_renumber {graph : PlanGraph} {domain : Domain} {node : Node} {shift : Nat}
    (standard : graph.Standard)
    (plain : ∀ demand ∈ node.tupleDemands domain, ¬ IsNumbered demand.name) :
    (graph.renumber shift).resolve domain (node.renumber shift) =
        (graph.resolve domain node).renumber shift ∧
      (graph.resolve domain node).graph.Standard := by
  have operator : (node.renumber shift).dispatch.name = node.dispatch.name := rfl
  unfold resolve
  rw [operator]
  cases found : domain.preconditionTuples (Text.lowercase node.dispatch.name) with
  | error fault => exact ⟨rfl, standard⟩
  | ok tuples =>
      rw [Node.tupleDemands, found] at plain
      exact @Resolution.addTuples_renumber domain { node, graph } shift standard _ plain

namespace Reading

variable {domain : Domain} {reading after : Reading} {shift : Nat}

def renumber (shift : Nat) (reading : Reading) : Reading :=
  { reading with
    continuations := reading.continuations.map (renumberedName shift)
    nextId := reading.nextId + shift
    graph := reading.graph.renumber shift }

theorem parents_renumber : (reading.renumber shift).parents =
    reading.parents.map (renumberedName shift) := by
  rw [parents, parents, List.map_take]
  rfl

theorem connected_renumber : (reading.renumber shift).connected = reading.connected.renumber shift := by
  have connects (names : List String) (graph : PlanGraph) (sink : Nat) :
      (names.map (renumberedName shift)).foldl (·.connect · (sink + shift)) (graph.renumber shift) =
        (names.foldl (·.connect · sink) graph).renumber shift := by
    induction names generalizing graph with
    | nil => rfl
    | cons name names ih =>
        rw [List.map_cons, List.foldl_cons, List.foldl_cons, ← PlanGraph.renumber_connect, ih]
  rw [connected, parents_renumber]
  exact connects _ _ _

theorem standard_connected (standard : reading.graph.Standard) : reading.connected.Standard := by
  have connects (names : List String) (graph : PlanGraph) (sink : Nat) (standard : graph.Standard) :
      (names.foldl (·.connect · sink) graph).Standard := by
    induction names generalizing graph with
    | nil => exact standard
    | cons name names ih => exact ih _ (standard.connect name sink)
  exact connects _ _ _ standard

theorem completion_of_standard (standard : reading.graph.Standard) :
    reading.completion = s!"e{reading.nextId}" :=
  (standard_connected standard).nameFor_numbered reading.nextId

theorem completion_renumber (standard : reading.graph.Standard) :
    (reading.renumber shift).completion = renumberedName shift reading.completion := by
  rw [completion_of_standard standard, renumberedName_numbered]
  exact completion_of_standard standard.renumber

theorem outfitted_renumber (standard : reading.graph.Standard) :
    (reading.renumber shift).outfitted = reading.outfitted.renumber shift := by
  rw [outfitted, outfitted, (standard_connected standard).renumber_addActionEdge, connected_renumber]
  rfl

theorem draft_renumber (standard : reading.graph.Standard) (signature : Signature)
    (parameters : List Binding) :
    (reading.renumber shift).draft signature parameters =
      (reading.draft signature parameters).renumber shift := by
  have adds (names : List String) (node : Node) :
      (names.map (renumberedName shift)).foldl Node.addInput (node.renumber shift) =
        (names.foldl Node.addInput node).renumber shift := by
    induction names generalizing node with
    | nil => rfl
    | cons name names ih =>
        rw [List.map_cons, List.foldl_cons, List.foldl_cons, ← Node.renumber_addInput, ih]
  have fresh : freshNode (reading.renumber shift).nextId signature parameters =
      (freshNode reading.nextId signature parameters).renumber shift := rfl
  rw [draft, draft, parents_renumber, fresh, adds, completion_renumber standard]
  rfl

theorem tupleDemands_draft (signature : Signature) (parameters : List Binding) :
    (reading.draft signature parameters).tupleDemands domain =
      (freshNode 0 signature parameters).tupleDemands domain := by
  have dispatch : (reading.draft signature parameters).dispatch =
      (freshNode reading.nextId signature parameters).dispatch := (foldl_addInput_kept _ _).2.2.2
  rw [Node.tupleDemands, dispatch]
  rfl

theorem resolution_renumber (shift : Nat) (standard : reading.graph.Standard) {signature : Signature}
    {parameters : List Binding} (declared : Reading.parameters domain signature = .ok parameters)
    (plain : ∀ name ∈ signature.preconditionNames domain, ¬ IsNumbered name) :
    (reading.renumber shift).resolution domain signature parameters =
        (reading.resolution domain signature parameters).renumber shift ∧
      (reading.resolution domain signature parameters).graph.Standard := by
  have outfits : reading.outfitted.Standard :=
    (standard_connected standard).addActionEdge reading.nextId
  rw [resolution, outfitted_renumber standard, draft_renumber standard]
  apply PlanGraph.resolve_renumber outfits
  rw [tupleDemands_draft]
  rw [Signature.preconditionNames, declared] at plain
  intro demand member
  exact plain demand.name (List.mem_map_of_mem member)

theorem not_isNumbered_outcomeEdge (value : Bool) (fact : String) :
    ¬ IsNumbered (outcomeEdge value fact) := by
  rintro ⟨id, same⟩
  have letters := congrArg (fun text => text.toList.head?) same
  simp only [PlanGraph.head?_outcomeEdge, toList_numbered, List.head?_cons] at letters
  cases letters

theorem Gates.renumber (shift : Nat) {graph final : PlanGraph} {node finished : Node} {gating : Gating}
    (standard : graph.Standard) (gates : Gates domain graph node gating final finished) :
    Gates domain (graph.renumber shift) (node.renumber shift) gating (final.renumber shift)
        (finished.renumber shift) ∧
      final.Standard := by
  cases gates with
  | free => exact ⟨.free, standard⟩
  | missing => exact ⟨.missing, standard⟩
  | @outcome value fact condition observed =>
      have plain := not_isNumbered_outcomeEdge value fact
      refine ⟨?_, standard.registerCondition plain _ condition⟩
      have kept := renumberedName_of_not_isNumbered shift plain
      rw [standard.renumber_registerCondition shift plain, Node.renumber_addInput,
        standard.answer_plain plain, kept]
      have gates := @Gates.outcome domain (graph.renumber shift) (node.renumber shift) value fact
        condition observed
      rwa [standard.renumber.answer_plain plain] at gates

theorem gating_renumber : (reading.renumber shift).gating = reading.gating := rfl

theorem Acted.renumber_unique {number : Nat} {signature : Signature}
    {bindings otherBindings : List Binding} {graph otherGraph : PlanGraph} {node otherNode : Node}
    {next : Reading} (standard : reading.graph.Standard)
    (plain : ∀ name ∈ signature.preconditionNames domain, ¬ IsNumbered name)
    (acted : Acted domain number signature reading after bindings graph node)
    (again : Acted domain number signature (reading.renumber shift) next otherBindings otherGraph
      otherNode) : next = after.renumber shift ∧ after.graph.Standard := by
  have declared := acted.declared
  rw [again.declared, Except.ok.injEq] at declared
  subst declared
  obtain ⟨resolved, still⟩ := resolution_renumber shift standard acted.declared plain
  obtain ⟨gates, final⟩ := acted.gates.renumber shift still
  have gatesToo := again.gates
  rw [resolved, gating_renumber] at gatesToo
  obtain ⟨rfl, rfl⟩ := gatesToo.unique gates
  rw [acted.after_eq, again.after_eq, completion_renumber standard]
  refine ⟨?_, final⟩
  have dropped : (reading.renumber shift).continuations.drop (reading.renumber shift).demand =
      (reading.continuations.drop reading.demand).map (renumberedName shift) := by
    rw [List.map_drop]
    rfl
  rw [dropped, ← PlanGraph.renumber_addNode]
  simp only [renumber, List.map_cons]
  congr 1
  omega

theorem act_renumber (standard : reading.graph.Standard) {number : Nat} {signature : Signature}
    (plain : ∀ name ∈ signature.preconditionNames domain, ¬ IsNumbered name)
    (acts : reading.act domain number signature = .ok after) :
    (reading.renumber shift).act domain number signature = .ok (after.renumber shift) ∧
      after.graph.Standard := by
  obtain ⟨_, _, _, acted⟩ := acted_of_act acts
  cases again : (reading.renumber shift).act domain number signature with
  | error fault =>
      have misfit := inconsistent_of_act again
      rw [gating_renumber] at misfit
      rw [act_eq_error_of_inconsistent misfit] at acts
      cases acts
  | ok next =>
      obtain ⟨_, _, _, actedAgain⟩ := acted_of_act again
      obtain ⟨same, still⟩ := acted.renumber_unique standard plain actedAgain
      exact ⟨congrArg Except.ok same, still⟩

theorem ramificate_renumber (line : Nat) :
    (reading.renumber shift).ramificate line = (reading.ramificate line).renumber shift := by
  obtain ⟨continuations, _, _, _, branching, _, _, _, _⟩ := reading
  cases branching with
  | false => rfl
  | true => cases continuations <;> rfl

theorem pop_renumber (line : Nat) (token : String) :
    (reading.renumber shift).pop line token = (reading.pop line token).renumber shift := by
  obtain ⟨continuations, _, _, _, _, _, _, _, _⟩ := reading
  match continuations with
  | [] => rfl
  | [_] => rfl
  | _ :: _ :: _ => rfl

theorem step_renumber (shift : Nat) (standard : reading.graph.Standard) {line : TraceLine}
    (plain : ∀ name ∈ line.preconditionNames domain, ¬ IsNumbered name)
    (step : reading.step domain line = .ok after) :
    (reading.renumber shift).step domain line = .ok (after.renumber shift) ∧
      after.graph.Standard := by
  rw [step_eq_of_token] at step ⊢
  rw [TraceLine.preconditionNames] at plain
  cases token : line.token? with
  | none =>
      rw [token] at step
      cases step
      exact ⟨rfl, standard⟩
  | some asked =>
      rw [token] at step plain
      cases asked with
      | ramificate =>
          cases step
          rw [reading.graph_ramificate]
          exact ⟨congrArg Except.ok (ramificate_renumber _), standard⟩
      | shed =>
          cases step
          exact ⟨rfl, standard⟩
      | pop =>
          cases step
          rw [reading.graph_pop]
          exact ⟨congrArg Except.ok (pop_renumber _ _), standard⟩
      | assume =>
          cases step
          exact ⟨rfl, standard⟩
      | action signature => exact act_renumber standard plain step

theorem foldlM_renumber (shift : Nat) (standard : reading.graph.Standard) {lines : List TraceLine}
    (plain : ∀ name ∈ lines.flatMap (TraceLine.preconditionNames domain), ¬ IsNumbered name)
    (run : lines.foldlM (step domain) reading = .ok after) :
    lines.foldlM (step domain) (reading.renumber shift) = .ok (after.renumber shift) ∧
      after.graph.Standard := by
  induction lines generalizing reading with
  | nil =>
      cases run
      exact ⟨rfl, standard⟩
  | cons line lines ih =>
      simp only [List.flatMap_cons, List.mem_append] at plain
      rw [List.foldlM_cons, except_bind_eq_ok] at run
      obtain ⟨middle, step, rest⟩ := run
      obtain ⟨stepped, still⟩ :=
        step_renumber shift standard (fun name member => plain name (Or.inl member)) step
      obtain ⟨ran, final⟩ := ih still (fun name member => plain name (Or.inr member)) rest
      refine ⟨?_, final⟩
      rw [List.foldlM_cons, except_bind_eq_ok]
      exact ⟨_, stepped, ran⟩

end Reading

def Plan.renumber (shift : Nat) (plan : Plan) : Plan :=
  { plan with graph := plan.graph.renumber shift, nextId := plan.nextId + shift }

theorem Plan.ofTrace_renumber {domain : Domain} {trace : String} {freeId : Nat} {plan : Plan}
    (shift : Nat) (plain : ∀ name ∈ requestedNames domain trace, ¬ IsNumbered name)
    (read : Plan.ofTrace domain trace freeId = .ok plan) :
    Plan.ofTrace domain trace (freeId + shift) = .ok (plan.renumber shift) ∧
      plan.graph.Standard := by
  rcases Plan.reads_of_ofTrace read with ⟨absent, rfl⟩ | ⟨block, final, announced, run, rfl⟩
  · rw [Plan.ofTrace, absent]
    exact ⟨rfl, .empty⟩
  · rw [requestedNames, announced] at plain
    have start : ({ nextId := freeId } : Reading).graph.Standard := .empty
    obtain ⟨ran, standard⟩ := Reading.foldlM_renumber shift start plain run
    exact ⟨Plan.ofTrace_of_foldlM announced ran, standard⟩

/-- A fault never depends on the free id. A plan depends on it by its ids and by the names of its action
edges, which are exactly the edges whose names are numbered. -/
theorem Session.free_id_only_numbers (domain : Domain) (trace : String) (freeId shift : Nat) :
    (∀ (session other : Session) (fault : PlanFault),
      (session.prepare domain trace freeId).1 = .error fault ↔
        (other.prepare domain trace (freeId + shift)).1 = .error fault) ∧
    ((∀ name ∈ requestedNames domain trace, ¬ IsNumbered name) →
      ∀ (session other : Session) (report : Report),
        (session.prepare domain trace freeId).1 = .ok report →
          (other.prepare domain trace (freeId + shift)).1 =
            .ok { report with nextId := report.nextId + shift } ∧
          (other.prepare domain trace (freeId + shift)).2.graph =
            (session.prepare domain trace freeId).2.graph.renumber shift ∧
          (session.prepare domain trace freeId).2.graph.Standard) := by
  constructor
  · intro session other fault
    rw [Session.prepare_eq_error_iff, Session.prepare_eq_error_iff,
      Plan.ofTrace_eq_error_iff_firstMisfit, Plan.ofTrace_eq_error_iff_firstMisfit]
  · intro plain session other report prepared
    simp only [prepare_eq] at prepared ⊢
    cases read : Plan.ofTrace domain trace freeId with
    | error fault =>
        rw [read] at prepared
        cases prepared
    | ok plan =>
        rw [read] at prepared
        obtain rfl := Except.ok.inj prepared
        obtain ⟨again, standard⟩ := Plan.ofTrace_renumber shift plain read
        rw [again]
        refine ⟨?_, rfl, standard⟩
        simp [Plan.report, Plan.renumber, PlanGraph.renumber]

def Domain.yard : Domain :=
  ((((({} : Domain).addPredicate "at" ["r", "l"]).addOperator "move" ["r", "from", "to"]).addOperator
    "observe-at" ["r", "l"]).addPrecondition "move" ["at", "r", "from"])

def yardTrace : String :=
  "\n".intercalate [planAnnouncement, "0: observe-at r a", "1: move r b c", "2: move r c b"]

/-- The completion edges of nodes 9 to 11 stand in another order than those of nodes 10 to 12. -/
theorem yard_renumbered :
    (({} : Session).prepare .yard yardTrace 9).1 = .ok ⟨true, 3, 12, []⟩ ∧
    (({} : Session).prepare .yard yardTrace 10).1 = .ok ⟨true, 3, 13, []⟩ ∧
    (({} : Session).prepare .yard yardTrace 10).2.graph =
      (({} : Session).prepare .yard yardTrace 9).2.graph.renumber 1 ∧
    (({} : Session).prepare .yard yardTrace 9).2.graph.edges.names =
      ["at r b", "at r c", "e10", "e11", "e9", "observe-edge-true-at r a"] ∧
    (({} : Session).prepare .yard yardTrace 10).2.graph.edges.names =
      ["at r b", "at r c", "e10", "e11", "e12", "observe-edge-true-at r a"] := by
  have plain : ∀ name ∈ requestedNames .yard yardTrace, ¬ IsNumbered name := by decide +kernel
  have evaluated : (({} : Session).prepare .yard yardTrace 9).1 = .ok ⟨true, 3, 12, []⟩ ∧
      (({} : Session).prepare .yard yardTrace 9).2.graph.edges.names =
        ["at r b", "at r c", "e10", "e11", "e9", "observe-edge-true-at r a"] := by decide +kernel
  obtain ⟨prepared, names⟩ := evaluated
  obtain ⟨again, graph, -⟩ :=
    (Session.free_id_only_numbers .yard yardTrace 9 1).2 plain {} {} _ prepared
  simp only [Nat.reduceAdd] at again graph
  exact ⟨prepared, again, graph, names, by decide +kernel⟩

end ContingentPlan
