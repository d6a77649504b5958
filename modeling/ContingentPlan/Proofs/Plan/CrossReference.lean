import ContingentPlan.Proofs.Reading.Sound

/-!
In the graph of a plan the nodes and the edges refer to each other exactly, and every continuation
that an action consumes on the way is an action edge of the graph.
-/

namespace ContingentPlan

structure CrossReferenced (graph : PlanGraph) : Prop where
  input_iff : ∀ node ∈ graph.nodes, ∀ name, name ∈ node.inputEdges ↔
    ∃ edge, graph.edge? name = some edge ∧ node.id ∈ edge.sinks
  sinks_stored : ∀ name edge, graph.edge? name = some edge →
    ∀ id ∈ edge.sinks, ∃ node ∈ graph.nodes, node.id = id
  inputs_nodup : ∀ node ∈ graph.nodes, node.inputEdges.Nodup
  sinks_ascending : ∀ name edge, graph.edge? name = some edge → edge.sinks.Pairwise (· < ·)

theorem Linked.crossReferenced {graph : PlanGraph} (linked : Linked graph graph.nodes) :
    CrossReferenced graph where
  input_iff := by
    intro node member name
    rw [linked.input_iff node member name, PlanGraph.mem_sinksAt_iff]
  sinks_stored := by
    intro name edge found id fed
    apply linked.stored name id
    rw [PlanGraph.sinksAt_of_edge? found]
    exact fed
  inputs_nodup := linked.input_nodup
  sinks_ascending := by
    intro name edge found
    have ascending := linked.ascending name
    rwa [PlanGraph.sinksAt_of_edge? found] at ascending

def Reading.ParentRegistered (reading : Reading) : Prop :=
  ∀ parent rest, reading.continuations = parent :: rest →
    ∃ edge, reading.graph.edge? parent = some edge ∧ edge.kind = .action

namespace Sound

variable {reading : Reading}

theorem parentRegistered (sound : Sound reading) : reading.ParentRegistered := by
  intro parent rest stack
  have member : parent ∈ reading.continuations := by rw [stack]; exact List.mem_cons_self
  obtain ⟨sources, action⟩ := sound.live parent member
  obtain ⟨edge, found, kind, -⟩ := PlanGraph.producers?_eq_some_iff.mp action
  exact ⟨edge, found, kind⟩

theorem parentRegistered_attachParent (sound : Sound reading) (node : Node) :
    (reading.attachParent node).1.ParentRegistered := by
  cases stack : reading.continuations with
  | nil =>
      simp only [Reading.attachParent, stack]
      exact sound.parentRegistered
  | cons first below =>
      simp only [Reading.attachParent, stack]
      intro parent rest same
      have member : parent ∈ reading.continuations := by
        rw [stack, show below = parent :: rest from same]
        simp
      obtain ⟨sources, action⟩ := sound.live parent member
      rw [← PlanGraph.producers?_connect reading.graph first node.id] at action
      obtain ⟨edge, found, kind, -⟩ := PlanGraph.producers?_eq_some_iff.mp action
      exact ⟨edge, found, kind⟩

end Sound

/-- At any point of the plan block, the edge that an action consumes first is registered, and so is
the one that a merging action consumes after it. -/
def ParentsRegistered (domain : Domain) (trace : String) (freeId : Nat) : Prop :=
  ∀ block before after reading, planBlock? trace = some block → block = before ++ after →
    before.foldlM (Reading.step domain) { nextId := freeId } = .ok reading →
    reading.ParentRegistered ∧ ∀ node, (reading.attachParent node).1.ParentRegistered

theorem Plan.crossReferenced_of_ofTrace {domain : Domain} {trace : String} {freeId : Nat}
    {plan : Plan} (read : Plan.ofTrace domain trace freeId = .ok plan) :
    CrossReferenced plan.graph ∧ ParentsRegistered domain trace freeId := by
  constructor
  · rcases Plan.reads_of_ofTrace read with ⟨-, rfl⟩ | ⟨block, reading, -, run, rfl⟩
    · exact (Sound.start freeId).linked.crossReferenced
    · exact (Sound.reads (Reading.Reads.start.foldlM run)).linked.crossReferenced
  · intro block before after reading _ _ run
    have sound := Sound.reads (Reading.Reads.start.foldlM run)
    exact ⟨sound.parentRegistered, sound.parentRegistered_attachParent⟩

theorem detour_crossReferenced : ∃ plan, Plan.ofTrace .rooms detourTrace 0 = .ok plan ∧
    plan.graph.nodes.length = 4 ∧ CrossReferenced plan.graph ∧
    ParentsRegistered .rooms detourTrace 0 := by
  obtain ⟨block, plan, -, -, read, -, count⟩ := exists_detour
  exact ⟨plan, read, count, Plan.crossReferenced_of_ofTrace read⟩

end ContingentPlan
