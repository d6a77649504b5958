import ContingentPlan.Proofs.Reading.Run

/-!
What holds of every reading that a block can lead to: nodes and edges refer to each other, each node
has its own completion edge, all continuations are action edges, and an action edge that feeds no
node is a continuation.
-/

namespace ContingentPlan

structure Sound (reading : Reading) : Prop where
  older : ∀ node ∈ reading.graph.nodes, node.id < reading.nextId
  linked : Linked reading.graph reading.graph.nodes
  completed : Completed reading.graph reading.graph.nodes
  forward : Forward reading.graph
  live : ∀ name ∈ reading.continuations, ∃ sources, reading.graph.producers? name = some sources
  waiting : ∀ name sources, reading.graph.producers? name = some sources →
    reading.graph.sinksAt name = [] → name ∈ reading.continuations

namespace Sound

variable {reading after : Reading}

theorem start (freeId : Nat) : Sound { nextId := freeId } where
  older := by
    intro node member
    cases member
  linked := Linked.empty
  completed := Completed.empty
  forward := Forward.empty
  live := by simp
  waiting := by
    intro name sources found
    cases found

theorem steer (sound : Sound reading) (graph : after.graph = reading.graph)
    (nextId : after.nextId = reading.nextId)
    (continuations : ∀ name, name ∈ after.continuations ↔ name ∈ reading.continuations) :
    Sound after where
  older := by rw [graph, nextId]; exact sound.older
  linked := by rw [graph]; exact sound.linked
  completed := by rw [graph]; exact sound.completed
  forward := by rw [graph]; exact sound.forward
  live := by
    intro name member
    rw [graph]
    exact sound.live name ((continuations name).mp member)
  waiting := by
    intro name sources action unfed
    rw [graph] at action unfed
    exact (continuations name).mpr (sound.waiting name sources action unfed)

theorem liveParents (sound : Sound reading) {name : String} (parent : name ∈ reading.parents) :
    ∃ sources, reading.graph.producers? name = some sources ∧
      ∀ source ∈ sources, source < reading.nextId := by
  obtain ⟨sources, action⟩ := sound.live name (List.mem_of_mem_take parent)
  obtain ⟨node, member, -, own, -⟩ := sound.completed.producer action
  refine ⟨sources, action, ?_⟩
  intro source among
  rw [own, List.mem_singleton] at among
  rw [among]
  exact sound.older node member

theorem completed_connected (sound : Sound reading) :
    Completed reading.connected reading.graph.nodes :=
  sound.completed.congr reading.producers?_connected

theorem free (sound : Sound reading) : reading.connected.edge? reading.completion = none :=
  sound.completed_connected.free sound.older

theorem linked_draft (sound : Sound reading) (signature : Signature) (parameters : List Binding) :
    Linked reading.outfitted (reading.graph.nodes ++ [reading.draft signature parameters]) := by
  have began : Linked reading.graph
      (reading.graph.nodes ++ [Reading.freshNode reading.nextId signature parameters]) :=
    sound.linked.begin sound.older rfl
  have parented := linked_foldl_connect
    (fun name parent => (sound.liveParents parent).imp fun _ facts => facts.1) began sound.older
  exact parented.congr (PlanGraph.sinksAt_addActionEdge sound.free _) rfl rfl

theorem completed_act (sound : Sound reading) {node : Node} (id : node.id = reading.nextId)
    (output : node.output = [reading.completion]) :
    Completed reading.outfitted (reading.graph.nodes ++ [node]) := by
  have newest : ∀ older ∈ reading.graph.nodes, older.id < node.id := by
    rw [id]
    exact sound.older
  have named : node.output = [reading.connected.nameFor s!"e{node.id}" .action] := by
    rw [output, id]
    rfl
  have added := sound.completed_connected.add newest named
  rwa [id] at added

theorem forward_outfitted (sound : Sound reading) : Forward reading.outfitted := by
  have connected : Forward reading.connected :=
    forward_foldl_connect sound.forward fun _ parent => sound.liveParents parent
  exact connected.addActionEdge sound.free reading.nextId

/-- An action edge that feeds no node was not consumed, so it is below the consumed ones. -/
theorem waiting_outfitted (sound : Sound reading) {name : String} {sources : List Nat}
    (action : reading.outfitted.producers? name = some sources)
    (unfed : reading.outfitted.sinksAt name = []) :
    name ∈ reading.completion :: reading.continuations.drop reading.demand := by
  rw [Reading.outfitted, PlanGraph.sinksAt_addActionEdge sound.free] at unfed
  rw [Reading.producers?_outfitted] at action
  split at action
  · rename_i own
    rw [own]
    exact List.mem_cons_self
  · have live : ∀ name ∈ reading.parents, ∃ sources, reading.graph.producers? name = some sources :=
      fun name parent => (sound.liveParents parent).imp fun _ facts => facts.1
    have before : reading.graph.sinksAt name = [] :=
      Decidable.byContradiction fun fed => sinksAt_foldl_connect_ne_nil live (Or.inr fed) unfed
    have waits := sound.waiting name sources action before
    rw [← List.take_append_drop reading.demand reading.continuations, List.mem_append] at waits
    rcases waits with consumed | below
    · exact absurd unfed (sinksAt_foldl_connect_ne_nil live (Or.inl consumed))
    · exact List.mem_cons_of_mem _ below

theorem act (sound : Sound reading) {domain : Domain} {line : Nat} {signature : Signature}
    {parameters : List Binding} {graph : PlanGraph} {node : Node}
    (acted : Reading.Acted domain line signature reading after parameters graph node) :
    Sound after := by
  have nodes := acted.nodes_eq
  have id := acted.id_eq
  have producers := acted.requires.producers?_eq
  have newest : ∀ older ∈ reading.graph.nodes,
      older.id < (reading.draft signature parameters).id := by
    rw [reading.id_draft]
    exact sound.older
  have linked := acted.requires.linked (sound.linked_draft signature parameters) newest
  rw [acted.after_eq]
  constructor
  · intro stored member
    change stored.id < reading.nextId + 1
    simp only [PlanGraph.addNode, nodes] at member
    rcases mem_append_singleton.mp member with older | own
    · have below := sound.older stored older
      omega
    · rw [own, id]
      omega
  · simp only [PlanGraph.addNode, nodes]
    exact linked.congr rfl rfl rfl
  · simp only [PlanGraph.addNode, nodes]
    exact (sound.completed_act id acted.output_eq).congr producers
  · exact acted.requires.forward sound.forward_outfitted
  · intro name member
    change ∃ sources, graph.producers? name = some sources
    rw [producers, Reading.producers?_outfitted]
    rcases List.mem_cons.mp member with own | below
    · exact ⟨_, if_pos own⟩
    · split
      · exact ⟨_, rfl⟩
      · exact sound.live name (List.mem_of_mem_drop below)
  · intro name sources action unfed
    change graph.producers? name = some sources at action
    change graph.sinksAt name = [] at unfed
    rw [producers] at action
    rw [acted.requires.sinksAt_of_producers? action] at unfed
    exact sound.waiting_outfitted action unfed

theorem stepped (sound : Sound reading) {domain : Domain} {line : TraceLine}
    (stepped : Reading.Stepped domain line reading after) : Sound after := by
  rcases stepped.acted_or_steered with ⟨_, _, _, _, -, acted⟩ | steered
  · exact sound.act acted
  · exact sound.steer steered.graph steered.nextId steered.continuations

theorem reads {domain : Domain} {freeId : Nat} {lines : List TraceLine}
    (reads : Reading.Reads domain freeId lines reading) : Sound reading := by
  induction reads with
  | start => exact start freeId
  | line _ stepped ih => exact ih.stepped stepped

end Sound

end ContingentPlan
