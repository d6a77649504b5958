import ContingentPlan.Proofs.Plan.Passage
import ContingentPlan.Proofs.Reading.Follow
import Mathlib.Data.List.DropRight
import Mathlib.Logic.Relation

/-!
The action edges of a plan lead from its first action to all the others and never back. From the
first action on some continuation is live, whatever the branch lines do, so every later action has a
parent; it has a second one only behind a shed.
-/

namespace ContingentPlan

def stretch (lines : List TraceLine) : List TraceLine :=
  lines.rtakeWhile fun line => line.actionText?.isNone

theorem mem_stretch_concat {lines : List TraceLine} {line : TraceLine}
    (silent : line.actionText? = none) {other : TraceLine} :
    other ∈ stretch (lines ++ [line]) ↔ other ∈ stretch lines ∨ other = line := by
  have idle : line.actionText?.isNone = true := by simp [silent]
  rw [stretch, List.rtakeWhile_concat_pos (fun line : TraceLine => line.actionText?.isNone) _ _ idle]
  exact mem_append_singleton

theorem length_inputEdges_foldl_addInput (names : List String) (node : Node) :
    (names.foldl Node.addInput node).inputEdges.length ≤
      node.inputEdges.length + names.length := by
  induction names generalizing node with
  | nil => simp
  | cons name names ih =>
      have rest := ih (node.addInput name)
      have own : (node.addInput name).inputEdges.length ≤ node.inputEdges.length + 1 := by
        rw [Node.inputEdges_addInput]
        split
        · omega
        · simp
      rw [List.foldl_cons, List.length_cons]
      omega

namespace PlanGraph

def Leads (graph : PlanGraph) (source sink : Nat) : Prop :=
  ∃ name edge, graph.edge? name = some edge ∧ edge.kind = .action ∧ source ∈ edge.sources ∧
    sink ∈ edge.sinks

def Parented (graph : PlanGraph) (first : Nat) (node : Node) : Prop :=
  (node.id = first → graph.actionInputs node = []) ∧
    (first < node.id → 1 ≤ (graph.actionInputs node).length) ∧
    (graph.actionInputs node).length ≤ 2

end PlanGraph

theorem Sound.idle {reading : Reading} (sound : Sound reading) (none : reading.graph.nodes = []) :
    reading.continuations = [] := by
  rw [List.eq_nil_iff_forall_not_mem]
  intro name member
  obtain ⟨sources, action⟩ := sound.live name member
  obtain ⟨producer, stored, -⟩ := sound.completed.producer action
  rw [none] at stored
  cases stored

structure Tied (freeId : Nat) (lines : List TraceLine) (reading : Reading) : Prop where
  live : reading.graph.nodes ≠ [] → reading.continuations ≠ []
  parented : ∀ node ∈ reading.graph.nodes, reading.graph.Parented freeId node
  ordered : ∀ node ∈ reading.graph.nodes,
    ∃ others, node.inputEdges = reading.graph.actionInputs node ++ others
  merging : reading.merging = true → ∃ line ∈ stretch lines, line.token? = some .shed

namespace Tied

variable {freeId : Nat} {lines : List TraceLine} {reading after : Reading} {domain : Domain}
  {line : TraceLine}

theorem start : Tied freeId [] { nextId := freeId } where
  live := by
    intro nodes
    exact absurd rfl nodes
  parented := by
    intro node member
    cases member
  ordered := by
    intro node member
    cases member
  merging := by
    intro merging
    cases merging

theorem steer (tied : Tied freeId lines reading) (steered : Reading.Steered line reading after) :
    Tied freeId (lines ++ [line]) after where
  live := by
    rw [steered.graph]
    intro nodes empty
    apply tied.live nodes
    rw [List.eq_nil_iff_forall_not_mem]
    intro name member
    rw [← steered.continuations, empty] at member
    cases member
  parented := by
    rw [steered.graph]
    exact tied.parented
  ordered := by
    rw [steered.graph]
    exact tied.ordered
  merging := by
    intro merges
    rcases steered.merging merges with before | shed
    · obtain ⟨other, member, token⟩ := tied.merging before
      exact ⟨other, (mem_stretch_concat steered.actionText?).mpr (Or.inl member), token⟩
    · exact ⟨line, (mem_stretch_concat steered.actionText?).mpr (Or.inr rfl), shed⟩

theorem parented_act (tied : Tied freeId lines reading) (sound : Sound reading)
    (nextId : reading.nextId = freeId + reading.graph.nodes.length) {number : Nat}
    {signature : Signature} {parameters : List Binding} {graph : PlanGraph} {node : Node}
    (acted : Reading.Acted domain number signature reading after parameters graph node) :
    after.graph.Parented freeId node := by
  rw [PlanGraph.Parented, sound.actionInputs_act acted, acted.id_eq]
  refine ⟨?_, ?_, ?_⟩
  · intro first
    have none : reading.graph.nodes = [] := List.length_eq_zero_iff.mp (by omega)
    rw [Reading.parents, sound.idle none, List.take_nil]
    rfl
  · intro later
    have some : reading.graph.nodes ≠ [] := by
      intro none
      rw [none, List.length_nil] at nextId
      omega
    obtain ⟨top, below, stack⟩ := List.exists_cons_of_ne_nil (tied.live some)
    have parent : top ∈ reading.parents := by
      rw [Reading.parents, stack, Reading.demand]
      split <;> simp
    exact List.length_pos_of_mem (mem_inputEdges_foldl_addInput.mpr (Or.inr parent))
  · have bound := length_inputEdges_foldl_addInput reading.parents
      (Reading.freshNode reading.nextId signature parameters)
    have demand : reading.demand ≤ 2 := by
      rw [Reading.demand]
      split <;> omega
    have few := List.length_take_le reading.demand reading.continuations
    rw [← Reading.parents] at few
    rw [Reading.inputEdges_freshNode, List.length_nil] at bound
    omega

theorem act (tied : Tied freeId lines reading) (sound : Sound reading)
    (nextId : reading.nextId = freeId + reading.graph.nodes.length) {number : Nat}
    {signature : Signature} {parameters : List Binding} {graph : PlanGraph} {node : Node}
    (acted : Reading.Acted domain number signature reading after parameters graph node) :
    Tied freeId (lines ++ [line]) after := by
  have grows := sound.grows_act acted
  have nodes := acted.nodes_after
  constructor
  · intro _ empty
    rw [acted.after_eq] at empty
    cases empty
  · intro other member
    rw [nodes] at member
    rcases mem_append_singleton.mp member with older | own
    · rw [PlanGraph.Parented, grows.actionInputs older]
      exact tied.parented other older
    · rw [own]
      exact tied.parented_act sound nextId acted
  · intro other member
    rw [nodes] at member
    rcases mem_append_singleton.mp member with older | own
    · rw [grows.actionInputs older]
      exact tied.ordered other older
    · obtain ⟨added, all, -⟩ := acted.requires.inputEdges_eq
      refine ⟨added, ?_⟩
      rw [own, all, sound.actionInputs_act acted]
      rfl
  · intro merging
    rw [acted.after_eq] at merging
    cases merging

theorem stepped (tied : Tied freeId lines reading) (sound : Sound reading)
    (nextId : reading.nextId = freeId + reading.graph.nodes.length)
    (stepped : Reading.Stepped domain line reading after) : Tied freeId (lines ++ [line]) after := by
  rcases stepped.acted_or_steered with ⟨_, _, _, _, -, acted⟩ | steered
  · exact tied.act sound nextId acted
  · exact tied.steer steered

theorem reads (reads : Reading.Reads domain freeId lines reading) : Tied freeId lines reading := by
  induction reads with
  | start => exact start
  | line before stepped ih =>
      have recorded := Recorded.reads before
      exact ih.stepped (Sound.reads before) (by rw [recorded.count, recorded.nextId]) stepped

end Tied

/-- The action edges of the graph form a rooted acyclic graph on its nodes. -/
structure Rooted (graph : PlanGraph) (root : Node) : Prop where
  member : root ∈ graph.nodes
  least : ∀ node ∈ graph.nodes, node = root ∨ root.id < node.id
  forward : ∀ source sink, graph.Leads source sink → source < sink
  rootless : graph.actionInputs root = []
  parented : ∀ node ∈ graph.nodes, node ≠ root →
    (graph.actionInputs node).length = 1 ∨ (graph.actionInputs node).length = 2
  ordered : ∀ node ∈ graph.nodes, ∃ conditions,
    node.inputEdges = graph.actionInputs node ++ conditions ∧
    ∀ name ∈ conditions, ∃ edge, graph.edge? name = some edge ∧ edge.kind = .condition
  reachable : ∀ node ∈ graph.nodes, Relation.ReflTransGen graph.Leads root.id node.id

namespace Sound

variable {reading : Reading}

theorem leads_forward (sound : Sound reading) {source sink : Nat}
    (leads : reading.graph.Leads source sink) : source < sink := by
  obtain ⟨name, edge, held, kind, leaves, enters⟩ := leads
  have action := PlanGraph.producers?_of_edge? held kind
  rw [← PlanGraph.sinksAt_of_edge? held] at enters
  exact sound.forward name edge.sources action source leaves sink enters

theorem exists_parent (sound : Sound reading) {node : Node} (member : node ∈ reading.graph.nodes)
    (fed : reading.graph.actionInputs node ≠ []) :
    ∃ parent ∈ reading.graph.nodes, reading.graph.Leads parent.id node.id := by
  obtain ⟨name, inputs⟩ := List.exists_mem_of_ne_nil _ fed
  obtain ⟨input, action⟩ := List.mem_filter.mp inputs
  obtain ⟨sources, produced⟩ := Option.isSome_iff_exists.mp action
  obtain ⟨parent, stored, -, own, -⟩ := sound.completed.producer produced
  obtain ⟨edge, held, kind, same⟩ := PlanGraph.producers?_eq_some_iff.mp produced
  have sink := (sound.linked.input_iff node member name).mp input
  rw [PlanGraph.sinksAt_of_edge? held] at sink
  exact ⟨parent, stored, name, edge, held, kind, by rw [same, own]; simp, sink⟩

theorem reachable (sound : Sound reading) {root : Node}
    (fed : ∀ node ∈ reading.graph.nodes, node ≠ root → reading.graph.actionInputs node ≠ [])
    {node : Node} (member : node ∈ reading.graph.nodes) :
    Relation.ReflTransGen reading.graph.Leads root.id node.id := by
  generalize number : node.id = id
  induction id using Nat.strongRecOn generalizing node with
  | ind id ih =>
      by_cases same : node = root
      · rw [← number, same]
      · obtain ⟨parent, stored, leads⟩ := sound.exists_parent member (fed node member same)
        have below := sound.leads_forward leads
        rw [number] at leads below
        exact (ih parent.id below stored rfl).tail leads

/-- Behind the action inputs of a node that lists them first there are conditions only. -/
theorem conditions_behind (sound : Sound reading) {node : Node}
    (member : node ∈ reading.graph.nodes) {others : List String}
    (ordered : node.inputEdges = reading.graph.actionInputs node ++ others) :
    ∀ name ∈ others, ∃ edge, reading.graph.edge? name = some edge ∧ edge.kind = .condition := by
  have none : others.filter (fun name => (reading.graph.producers? name).isSome) = [] := by
    have twice := congrArg
      (List.filter fun name => (reading.graph.producers? name).isSome) ordered
    rw [List.filter_append, PlanGraph.actionInputs, List.filter_filter] at twice
    simpa using twice
  intro name listed
  have input : name ∈ node.inputEdges := by
    rw [ordered]
    exact List.mem_append_right _ listed
  have fed := (sound.linked.input_iff node member name).mp input
  obtain ⟨edge, held, -⟩ := PlanGraph.mem_sinksAt_iff.mp fed
  refine ⟨edge, held, ?_⟩
  cases kind : edge.kind with
  | condition => rfl
  | action =>
      have produced := PlanGraph.producers?_of_edge? held kind
      have refuted := List.filter_eq_nil_iff.mp none name listed
      simp [produced] at refuted

end Sound

theorem Tied.rooted {freeId : Nat} {lines : List TraceLine} {reading : Reading} {root : Node}
    {rest : List Node} (tied : Tied freeId lines reading) (sound : Sound reading)
    (nodes : reading.graph.nodes = root :: rest)
    (ids : reading.graph.nodes.map Node.id = List.range' freeId reading.graph.nodes.length) :
    Rooted reading.graph root := by
  have first : root.id = freeId := by
    simp only [nodes, List.map_cons, List.length_cons, List.range'_succ, List.cons.injEq] at ids
    exact ids.1
  have member : root ∈ reading.graph.nodes := by
    rw [nodes]
    exact List.mem_cons_self
  have later : ∀ node ∈ reading.graph.nodes, node = root ∨ root.id < node.id := by
    intro node stored
    have among : node.id ∈ List.range' freeId reading.graph.nodes.length := by
      rw [← ids]
      exact List.mem_map_of_mem stored
    have bounds := List.mem_range'_1.mp among
    by_cases same : node.id = root.id
    · exact Or.inl (eq_of_ids ids stored member same)
    · right
      omega
  have parents : ∀ node ∈ reading.graph.nodes, node ≠ root →
      1 ≤ (reading.graph.actionInputs node).length := by
    intro node stored other
    apply (tied.parented node stored).2.1
    have above := (later node stored).resolve_left other
    omega
  constructor
  · exact member
  · exact later
  · intro source sink
    exact sound.leads_forward
  · exact (tied.parented root member).1 first
  · intro node stored other
    have some := parents node stored other
    have few := (tied.parented node stored).2.2
    omega
  · intro node stored
    obtain ⟨others, ordered⟩ := tied.ordered node stored
    exact ⟨others, ordered, sound.conditions_behind stored ordered⟩
  · intro node stored
    apply sound.reachable _ stored
    intro other among different
    exact List.ne_nil_of_length_pos (parents other among different)

/-- The action of a line has two parents only if a shed stands between the action before it and
itself. -/
def MergesBehindSheds (block : List TraceLine) (freeId : Nat) (graph : PlanGraph) : Prop :=
  ∀ before line after signature, block = before ++ line :: after →
    line.token? = some (.action signature) →
    ∃ node, graph.node? (freeId + (before.filterMap TraceLine.actionText?).length) = some node ∧
      ((graph.actionInputs node).length = 2 →
        ∃ shed ∈ stretch before, shed.token? = some .shed)

theorem Sound.merging_of_two {reading after : Reading} (sound : Sound reading) {domain : Domain}
    {line : Nat} {signature : Signature} {parameters : List Binding} {graph : PlanGraph}
    {node : Node} (acted : Reading.Acted domain line signature reading after parameters graph node)
    (two : (after.graph.actionInputs node).length = 2) : reading.merging = true := by
  cases merging : reading.merging with
  | true => rfl
  | false =>
      have bound := length_inputEdges_foldl_addInput reading.parents
        (Reading.freshNode reading.nextId signature parameters)
      have demand : reading.demand = 1 := by rw [Reading.demand, merging]; rfl
      have few := List.length_take_le reading.demand reading.continuations
      rw [← Reading.parents, demand] at few
      rw [sound.actionInputs_act acted] at two
      rw [Reading.inputEdges_freshNode, List.length_nil] at bound
      omega

theorem mergesBehindSheds {domain : Domain} {freeId : Nat} {block : List TraceLine}
    {final : Reading}
    (run : block.foldlM (Reading.step domain) { nextId := freeId } = .ok final) :
    MergesBehindSheds block freeId final.graph := by
  intro before line after signature split action
  subst split
  obtain ⟨reading, middle, parameters, graph, node, placed⟩ := Reading.placed_of_foldlM run action
  refine ⟨node, placed.stored, ?_⟩
  intro two
  have own := (Sound.reads placed.reads).node?_act placed.acted
  rw [placed.grows.actionInputs (List.mem_of_find?_eq_some own)] at two
  exact (Tied.reads placed.reads).merging ((Sound.reads placed.reads).merging_of_two placed.acted two)

theorem Plan.rooted_of_ofTrace {domain : Domain} {trace : String} {freeId : Nat} {plan : Plan}
    {block : List TraceLine} (read : Plan.ofTrace domain trace freeId = .ok plan)
    (announced : planBlock? trace = some block) (nonempty : plan.graph.nodes ≠ []) :
    (∃ root, Rooted plan.graph root) ∧ MergesBehindSheds block freeId plan.graph := by
  obtain ⟨final, run, rfl⟩ := Plan.foldlM_of_ofTrace read announced
  have reads := Reading.Reads.start.foldlM run
  have recorded := Recorded.reads reads
  have ids := recorded.ids
  rw [← recorded.count] at ids
  obtain ⟨root, rest, nodes⟩ := List.exists_cons_of_ne_nil nonempty
  exact ⟨⟨root, (Tied.reads reads).rooted (Sound.reads reads) nodes ids⟩, mergesBehindSheds run⟩

theorem detour_rooted : ∃ block plan, planBlock? detourTrace = some block ∧
    Plan.ofTrace .rooms detourTrace 0 = .ok plan ∧ plan.graph.nodes ≠ [] ∧
    (∃ root, Rooted plan.graph root) ∧ MergesBehindSheds block 0 plan.graph := by
  obtain ⟨block, plan, announced, -, read, -, count⟩ := exists_detour
  have nonempty : plan.graph.nodes ≠ [] := by
    intro empty
    rw [empty] at count
    cases count
  exact ⟨block, plan, announced, read, nonempty,
    Plan.rooted_of_ofTrace read announced nonempty⟩

end ContingentPlan
