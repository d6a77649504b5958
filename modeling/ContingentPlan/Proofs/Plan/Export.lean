import ContingentPlan.Export
import ContingentPlan.Proofs.Domain
import ContingentPlan.Proofs.Graph.Registry
import ContingentPlan.Proofs.Plan.Program

/-!
The export of a plan describes the same plan as its program. The dispatch records are those of the
action modules; the signals that no module emits are those of the exported conditions, and each of them
is awaited somewhere.
-/

namespace ContingentPlan

/-- What the two descriptions share: conditions are recorded for the condition edges and for them only,
every condition edge feeds a node, and nodes are dispatched under their own ids. -/
structure Portable (graph : PlanGraph) : Prop where
  stored : WellStored graph
  fed : ∀ name edge, graph.edge? name = some edge → edge.kind = .condition → edge.sinks ≠ []
  dispatched : ∀ node ∈ graph.nodes, node.dispatch.actionId = node.id

namespace Develops

variable {graph after : PlanGraph} {answers : List Answer}

theorem nodes_eq (develops : Develops graph answers after) : after.nodes = graph.nodes := by
  induction develops with
  | refl => rfl
  | connect name sink _ ih => exact ih
  | addActionEdge name source _ ih => exact ih
  | registerCondition name sink condition _ ih => exact ih

theorem fed (develops : Develops graph answers after)
    (start : ∀ name edge, graph.edge? name = some edge → edge.kind = .condition → edge.sinks ≠ []) :
    ∀ name edge, after.edge? name = some edge → edge.kind = .condition → edge.sinks ≠ [] := by
  induction develops with
  | refl => exact start
  | @connect _ middle name sink _ ih =>
      intro other edge held kind
      rw [PlanGraph.edge?_connect] at held
      split at held
      · obtain ⟨before, -, rfl⟩ := Option.map_eq_some_iff.mp held
        rw [Edge.sinks_addSink]
        exact Edge.extendSinks_ne_nil _ _
      · exact ih other edge held kind
  | @addActionEdge _ middle name source _ ih =>
      intro other edge held kind
      rw [PlanGraph.edge?_addActionEdge] at held
      split at held
      · cases held
        cases kind
      · exact ih other edge held kind
  | @registerCondition _ middle name sink condition _ ih =>
      intro other edge held kind
      rw [PlanGraph.edge?_registerCondition] at held
      split at held
      · cases held
        rw [Edge.sinks_addSink]
        exact Edge.extendSinks_ne_nil _ _
      · exact ih other edge held kind

end Develops

theorem develops_foldl_connect (names : List String) (sink : Nat) (graph : PlanGraph) :
    Develops graph [] (names.foldl (·.connect · sink) graph) := by
  induction names generalizing graph with
  | nil => exact .refl
  | cons name names ih => exact (Develops.refl.connect name sink).trans (ih (graph.connect name sink))

theorem Requires.develops {domain : Domain} {graph after : PlanGraph} {node final : Node}
    (requires : Requires domain graph node after final) : ∃ answers, Develops graph answers after := by
  induction requires with
  | refl => exact ⟨[], .refl⟩
  | step _ _ ih =>
      obtain ⟨answers, develops⟩ := ih
      exact ⟨_, develops.registerCondition _ _ _⟩

theorem Reading.Acted.develops {domain : Domain} {line : Nat} {signature : Signature}
    {reading after : Reading} {parameters : List Binding} {graph : PlanGraph} {node : Node}
    (acted : Reading.Acted domain line signature reading after parameters graph node) :
    ∃ answers, Develops reading.graph answers graph := by
  obtain ⟨answers, required⟩ := acted.requires.develops
  have connected := develops_foldl_connect reading.parents reading.nextId reading.graph
  exact ⟨_, (connected.addActionEdge s!"e{reading.nextId}" reading.nextId).trans required⟩

namespace Portable

variable {reading after : Reading}

theorem empty : Portable ∅ where
  stored := .empty
  fed := by
    intro name edge held
    cases held
  dispatched := by
    intro node member
    cases member

theorem act (portable : Portable reading.graph) {domain : Domain} {line : Nat}
    {signature : Signature} {parameters : List Binding} {graph : PlanGraph} {node : Node}
    (acted : Reading.Acted domain line signature reading after parameters graph node) :
    Portable after.graph := by
  obtain ⟨answers, develops⟩ := acted.develops
  have stored := develops.wellStored portable.stored
  have fed := develops.fed portable.fed
  constructor
  · rw [acted.after_eq]
    exact ⟨stored.named, stored.recorded, stored.sinks_nodup⟩
  · rw [acted.after_eq]
    exact fed
  · intro other member
    rw [acted.nodes_after] at member
    rcases mem_append_singleton.mp member with older | own
    · exact portable.dispatched other older
    · rw [own, acted.dispatch_eq, acted.id_eq]

theorem stepped (portable : Portable reading.graph) {domain : Domain} {line : TraceLine}
    (stepped : Reading.Stepped domain line reading after) : Portable after.graph := by
  rcases stepped.acted_or_steered with ⟨_, _, _, _, -, acted⟩ | steered
  · exact portable.act acted
  · rw [steered.graph]
    exact portable

theorem reads {domain : Domain} {freeId : Nat} {lines : List TraceLine}
    (reads : Reading.Reads domain freeId lines reading) : Portable reading.graph := by
  induction reads with
  | start => exact empty
  | line _ stepped ih => exact ih.stepped stepped

theorem names_conditions {graph : PlanGraph} (portable : Portable graph) :
    graph.edges.names.filter (fun name => (graph.condition? name).isSome) =
      graph.conditions.names := by
  have kept : Lists (graph.edges.names.filter fun name => (graph.condition? name).isSome)
      graph.conditions.names := by
    constructor
    · apply List.Pairwise.filter
      rw [Catalog.names, List.pairwise_map]
      exact graph.edges.ascending
    · intro name
      rw [List.mem_filter, Catalog.mem_names_iff, Catalog.mem_names_iff, Option.isSome_iff_exists]
      constructor
      · exact fun both => both.2
      · intro recorded
        obtain ⟨edge, held, -⟩ := (portable.stored.recorded name).mp recorded
        exact ⟨⟨edge, held⟩, recorded⟩
  have own : Lists graph.conditions.names graph.conditions.names := by
    refine ⟨?_, fun name => Iff.rfl⟩
    rw [Catalog.names, List.pairwise_map]
    exact graph.conditions.ascending
  exact kept.eq own

end Portable

def emitters (listings : List Listing) (signal : String) : Nat :=
  listings.countP (signal ∈ ·.names .emit)

namespace Sound

variable {reading : Reading} {name : String}

theorem mem_emit_iff (sound : Sound reading) {node : Node} (member : node ∈ reading.graph.nodes)
    (registered : name ∈ reading.graph.edges.names) :
    reading.graph.signal name ∈ (reading.graph.actionModule node).listing.names .emit ↔
      name ∈ node.output := by
  have apart := (reading.graph.signals_legal.apart name registered node member).1
  rw [ActionModule.names_listing, PlanGraph.actionModule, List.mem_cons, List.mem_map]
  constructor
  · rintro (dispatch | ⟨output, among, same⟩)
    · exact absurd dispatch apart
    · have registeredToo := sound.edges_registered member output (List.mem_append_right _ among)
      rw [← PlanGraph.signal_injective registeredToo registered same]
      exact among
  · exact fun among => Or.inr ⟨name, among, rfl⟩

theorem countP_output (sound : Sound reading) (distinct : (reading.graph.nodes.map Node.id).Nodup)
    {edge : Edge} (held : reading.graph.edge? name = some edge) :
    reading.graph.nodes.countP (name ∈ ·.output) = if edge.kind = .action then 1 else 0 := by
  split
  · rename_i action
    obtain ⟨node, member, output, single, -⟩ :=
      sound.completed.producer (PlanGraph.producers?_of_edge? held action)
    have only : ∀ other ∈ reading.graph.nodes, name ∈ other.output ↔ other = node := by
      intro other among
      constructor
      · intro produced
        obtain ⟨own, outputs, producers, -⟩ := sound.completed.output other among
        rw [outputs, List.mem_singleton] at produced
        rw [← produced, PlanGraph.producers?_of_edge? held action, single, Option.some.injEq,
          List.cons.injEq] at producers
        exact List.inj_on_of_nodup_map distinct among member producers.1.symm
      · rintro rfl
        rw [output]
        exact List.mem_cons_self
    have counted : reading.graph.nodes.countP (name ∈ ·.output) = reading.graph.nodes.count node := by
      apply List.countP_congr
      intro other among
      simpa using only other among
    rw [counted]
    exact List.count_eq_one_of_mem distinct.of_map member
  · rename_i condition
    rw [List.countP_eq_zero]
    intro node member produced
    rw [decide_eq_true_eq] at produced
    obtain ⟨own, outputs, producers, -⟩ := sound.completed.output node member
    rw [outputs, List.mem_singleton] at produced
    obtain ⟨other, heldToo, action, -⟩ := PlanGraph.producers?_eq_some_iff.mp producers
    rw [← produced, held, Option.some.injEq] at heldToo
    exact condition (heldToo ▸ action)

theorem emitters_eq (sound : Sound reading) (distinct : (reading.graph.nodes.map Node.id).Nodup)
    {edge : Edge} (held : reading.graph.edge? name = some edge) :
    emitters (reading.graph.nodes.map fun node => (reading.graph.actionModule node).listing)
        (reading.graph.signal name) = if edge.kind = .action then 1 else 0 := by
  have registered : name ∈ reading.graph.edges.names := Catalog.mem_names_iff.mpr ⟨edge, held⟩
  rw [← sound.countP_output distinct held, emitters, List.countP_map]
  apply List.countP_congr
  intro node member
  simp only [Function.comp_apply, decide_eq_true_eq]
  exact sound.mem_emit_iff member registered

end Sound

/-- The program, read back as `top` and `listings`, and the export say the same about the plan. -/
structure ExportAgrees (graph : PlanGraph) (top : Listing) (listings : List Listing) : Prop where
  dispatches : listings.map (moduleId? ·.name) =
    (Export.ofGraph graph).dispatches.map fun dispatch => some dispatch.actionId
  once : (top.names .signal).Nodup
  split : ∀ signal ∈ top.names .signal, emitters listings signal = 1 ∨ emitters listings signal = 0
  actions : (top.names .signal).filter (emitters listings · = 1) =
    (graph.edges.entries.filter (·.2.kind = .action)).map (graph.signal ·.1)
  conditions : (top.names .signal).filter (emitters listings · = 0) =
    (Export.ofGraph graph).conditions.map (graph.signal ·.edge)
  awaited : ∀ entry ∈ (Export.ofGraph graph).conditions,
    ∃ listing ∈ listings, graph.signal entry.edge ∈ listing.names .await

theorem Sound.exportAgrees {reading : Reading} (sound : Sound reading)
    (distinct : (reading.graph.nodes.map Node.id).Nodup) (portable : Portable reading.graph) :
    ExportAgrees reading.graph (Controller.ofGraph reading.graph).listing
      (reading.graph.nodes.map fun node => (reading.graph.actionModule node).listing) where
  dispatches := by
    rw [Export.ofGraph, List.map_map, List.map_map]
    apply List.map_congr_left
    intro node member
    rw [Function.comp_apply, Function.comp_apply, portable.dispatched node member]
    exact numberBetween?_eq node.toList_moduleName
  once := by
    rw [PlanGraph.names_listing]
    exact reading.graph.nodup_map_snd_signals
  split := by
    rw [PlanGraph.names_listing]
    intro signal among
    rw [PlanGraph.map_snd_signals] at among
    obtain ⟨name, registered, rfl⟩ := List.mem_map.mp among
    obtain ⟨edge, held⟩ := Catalog.mem_names_iff.mp registered
    rw [sound.emitters_eq distinct held]
    split
    · exact Or.inl rfl
    · exact Or.inr rfl
  actions := by
    rw [PlanGraph.names_listing, PlanGraph.map_snd_signals, Catalog.names, List.map_map,
      List.filter_map]
    congr 1
    apply List.filter_congr
    rintro ⟨name, edge⟩ member
    have held : reading.graph.edge? name = some edge :=
      (lookup_eq_some_iff_mem reading.graph.edges.nodup_names).mpr member
    simp only [Function.comp_apply, sound.emitters_eq distinct held]
    cases edge.kind <;> rfl
  conditions := by
    have entries : (Export.ofGraph reading.graph).conditions.map (reading.graph.signal ·.edge) =
        reading.graph.conditions.names.map reading.graph.signal := by
      rw [Export.ofGraph, Catalog.names, List.map_map, List.map_map]
      rfl
    rw [PlanGraph.names_listing, PlanGraph.map_snd_signals, entries, ← portable.names_conditions,
      List.filter_map]
    congr 1
    apply List.filter_congr
    intro name registered
    obtain ⟨edge, found⟩ := Catalog.mem_names_iff.mp registered
    have held : reading.graph.edge? name = some edge := found
    have recorded := portable.stored.recorded name
    rw [← Option.isSome_iff_exists, held] at recorded
    rw [Bool.eq_iff_iff, recorded]
    simp only [Function.comp_apply, sound.emitters_eq distinct held]
    cases kind : edge.kind <;> simp [kind]
  awaited := by
    intro entry member
    obtain ⟨⟨name, condition⟩, among, rfl⟩ := List.mem_map.mp member
    have found : reading.graph.condition? name = some condition :=
      (lookup_eq_some_iff_mem reading.graph.conditions.nodup_names).mpr among
    obtain ⟨edge, held, kind⟩ := (portable.stored.recorded name).mp ⟨condition, found⟩
    obtain ⟨id, sink⟩ := List.exists_mem_of_ne_nil _ (portable.fed name edge held kind)
    rw [← PlanGraph.sinksAt_of_edge? held] at sink
    obtain ⟨node, stored, rfl⟩ := sound.linked.stored name id sink
    refine ⟨_, List.mem_map_of_mem stored, ?_⟩
    rw [ActionModule.names_listing]
    apply List.mem_append_left
    exact List.mem_map_of_mem ((sound.linked.input_iff node stored name).mpr sink)

theorem Plan.exportAgrees_of_ofTrace {domain : Domain} {trace : String} {freeId : Nat} {plan : Plan}
    (read : Plan.ofTrace domain trace freeId = .ok plan) :
    ∃ top listings, Listing.ofProgram? plan.graph.program = some (top :: listings) ∧
      ExportAgrees plan.graph top listings := by
  refine ⟨_, _, plan.graph.ofProgram?_program, ?_⟩
  rcases Plan.reads_of_ofTrace read with ⟨-, rfl⟩ | ⟨block, reading, -, run, rfl⟩
  · exact (Sound.start freeId).exportAgrees List.nodup_nil .empty
  · have reads := Reading.Reads.start.foldlM run
    rw [List.nil_append] at reads
    apply (Sound.reads reads).exportAgrees _ (Portable.reads reads)
    rw [(Recorded.reads reads).ids]
    exact List.nodup_range'

theorem detour_exportAgrees : ∃ plan top listings,
    Plan.ofTrace .rooms detourTrace 0 = .ok plan ∧
    Listing.ofProgram? plan.graph.program = some (top :: listings) ∧
    (Export.ofGraph plan.graph).dispatches.length = 4 ∧ ExportAgrees plan.graph top listings := by
  obtain ⟨-, plan, -, -, read, -, count⟩ := exists_detour
  obtain ⟨top, listings, program, agrees⟩ := Plan.exportAgrees_of_ofTrace read
  refine ⟨plan, top, listings, read, program, ?_, agrees⟩
  rw [Export.ofGraph, List.length_map, count]

end ContingentPlan
