import ContingentPlan.Proofs.Plan.Program

/-!
Names that a program uses for a module and for a signal. The signals keep clear of the action modules,
but not of the plan module: they clash with it where an edge has a name that stands for `plan`.
-/

namespace ContingentPlan

namespace Listing

def moduleNames (listing : Listing) : List String := listing.name :: listing.names .run

def signalNames (listing : Listing) : List String :=
  [Keyword.input, .output, .signal, .await, .emit].flatMap listing.names

end Listing

namespace PlanGraph

variable {graph : PlanGraph} {name : String}

def listings (graph : PlanGraph) : List Listing :=
  (Controller.ofGraph graph).listing :: graph.nodes.map fun node => (graph.actionModule node).listing

theorem mem_moduleNames_iff :
    name ∈ graph.listings.flatMap Listing.moduleNames ↔
      name = "plan" ∨ ∃ node ∈ graph.nodes, name = node.moduleName := by
  have top : (Controller.ofGraph graph).listing.moduleNames =
      "plan" :: graph.nodes.map Node.moduleName := by
    rw [Listing.moduleNames, names_listing]
    rfl
  have action (node : Node) : (graph.actionModule node).listing.moduleNames = [node.moduleName] := by
    rw [Listing.moduleNames, ActionModule.names_listing]
    rfl
  simp only [listings, List.flatMap_cons, List.flatMap_map, top, action, List.mem_append,
    List.mem_cons, List.mem_map, List.mem_flatMap, List.not_mem_nil, or_false]
  grind

/-- The signals that connect the program to its environment. -/
def interfaceSignals (graph : PlanGraph) : List String :=
  ["SOURCE", "SINK"] ++ graph.nodes.flatMap fun node => [node.dispatchSignal, node.completeSignal]

theorem mem_interfaceNames_iff :
    name ∈ graph.interfaceNames ↔
      name ∈ graph.interfaceSignals ∨ ∃ node ∈ graph.nodes, name = node.moduleName := by
  simp only [interfaceNames, interfaceSignals, List.mem_append, List.mem_flatMap, List.mem_cons,
    List.not_mem_nil, or_false]
  grind

theorem mem_signalNames_top :
    name ∈ (Controller.ofGraph graph).listing.signalNames ↔
      name ∈ graph.interfaceSignals ∨ name ∈ graph.signals.map Prod.snd := by
  have top : (Controller.ofGraph graph).listing.signalNames =
      "SOURCE" :: graph.nodes.map Node.completeSignal ++
        ("SINK" :: graph.nodes.map Node.dispatchSignal ++ graph.signals.map Prod.snd) := by
    simp [Listing.signalNames, names_listing]
  rw [top, interfaceSignals]
  simp only [List.cons_append, List.mem_cons, List.mem_append, List.mem_map, List.mem_flatMap,
    List.not_mem_nil, or_false]
  grind

theorem mem_signalNames_action {node : Node} :
    name ∈ (graph.actionModule node).listing.signalNames ↔
      name = node.dispatchSignal ∨ name = node.completeSignal ∨
        name ∈ (node.inputEdges ++ node.output).map graph.signal := by
  simp only [Listing.signalNames, List.flatMap_cons, List.flatMap_nil, ActionModule.names_listing,
    actionModule, List.mem_append, List.mem_cons, List.map_append, List.not_mem_nil, or_false]
  tauto

theorem not_mem_interfaceSignals (graph : PlanGraph) (plain : '_' ∉ name.toList)
    (apart : name ≠ "SOURCE" ∧ name ≠ "SINK") : name ∉ graph.interfaceSignals := by
  simp only [interfaceSignals, List.mem_append, List.mem_cons, List.mem_flatMap, List.not_mem_nil,
    or_false, not_or, not_exists, not_and]
  refine ⟨apart, fun node _ => ⟨?_, ?_⟩⟩
  · rintro rfl
    simp [Node.toList_dispatchSignal] at plain
  · rintro rfl
    simp [Node.toList_completeSignal] at plain

end PlanGraph

theorem Node.plain_moduleName (node : Node) : '_' ∉ node.moduleName.toList := by
  have digits : '_' ∉ Nat.toDigits 10 node.id := by
    intro member
    have digit := Nat.isDigit_of_mem_toDigits (by omega) (by omega) member
    cases digit
  simp [Node.toList_moduleName, digits]

theorem Node.moduleName_ne (node : Node) :
    node.moduleName ≠ "SOURCE" ∧ node.moduleName ≠ "SINK" ∧ node.moduleName ≠ "plan" := by
  refine ⟨?_, ?_, ?_⟩
  all_goals
    intro same
    have chars := congrArg String.toList same
    simp [Node.toList_moduleName] at chars

theorem Sound.mem_signalNames_iff {reading : Reading} (sound : Sound reading) {name : String} :
    name ∈ reading.graph.listings.flatMap Listing.signalNames ↔
      name ∈ reading.graph.interfaceSignals ∨ name ∈ reading.graph.signals.map Prod.snd := by
  rw [PlanGraph.listings, List.flatMap_cons, List.mem_append, PlanGraph.mem_signalNames_top,
    or_iff_left_iff_imp]
  intro member
  rw [List.flatMap_map] at member
  obtain ⟨node, stored, member⟩ := List.mem_flatMap.mp member
  have interface : ∀ signal ∈ [node.dispatchSignal, node.completeSignal],
      signal ∈ reading.graph.interfaceSignals := by
    intro signal among
    exact List.mem_append_right _ (List.mem_flatMap.mpr ⟨node, stored, among⟩)
  rcases PlanGraph.mem_signalNames_action.mp member with rfl | rfl | ofEdge
  · exact Or.inl (interface _ (by simp))
  · exact Or.inl (interface _ (by simp))
  · obtain ⟨edge, used, rfl⟩ := List.mem_map.mp ofEdge
    exact Or.inr (List.mem_map_of_mem (PlanGraph.signal_mem (sound.edges_registered stored edge used)))

/-- An edge signal has the name of the plan module where the edge's name stands for it. -/
theorem PlanGraph.plan_mem_signals_iff {graph : PlanGraph} :
    "plan" ∈ graph.signals.map Prod.snd ↔
      ∃ edge ∈ graph.edges.names, Text.identifier edge = "plan" := by
  have plain : '_' ∉ "plan".toList := by decide
  have unused : "plan" ∉ graph.interfaceNames := by
    rw [mem_interfaceNames_iff]
    rintro (interface | ⟨node, -, same⟩)
    · exact graph.not_mem_interfaceSignals plain (by decide) interface
    · exact node.moduleName_ne.2.2 same.symm
  have unreserved : Text.lowercase "plan" ∉ reservedWords := by decide +kernel
  rw [signals, mem_assignSignals_iff plain, and_iff_right unused]
  simp only [signalBase_eq_iff plain unreserved]

theorem Sound.clash_iff {reading : Reading} (sound : Sound reading) {name : String} :
    name ∈ reading.graph.listings.flatMap Listing.moduleNames ∧
        name ∈ reading.graph.listings.flatMap Listing.signalNames ↔
      name = "plan" ∧ ∃ edge ∈ reading.graph.edges.names, Text.identifier edge = "plan" := by
  rw [PlanGraph.mem_moduleNames_iff, sound.mem_signalNames_iff, ← PlanGraph.plan_mem_signals_iff]
  constructor
  · rintro ⟨rfl | ⟨node, stored, rfl⟩, signal⟩
    · have outside : "plan" ∉ reading.graph.interfaceSignals :=
        reading.graph.not_mem_interfaceSignals (by decide) (by decide)
      exact ⟨rfl, signal.resolve_left outside⟩
    · have outside := reading.graph.not_mem_interfaceSignals node.plain_moduleName
        ⟨node.moduleName_ne.1, node.moduleName_ne.2.1⟩
      obtain ⟨entry, among, same⟩ := List.mem_map.mp (signal.resolve_left outside)
      have unused := (assignSignals_spec among).1
      rw [same] at unused
      exact absurd (PlanGraph.mem_interfaceNames_iff.mpr (Or.inr ⟨node, stored, rfl⟩)) unused
  · rintro ⟨rfl, signal⟩
    exact ⟨Or.inl rfl, Or.inr signal⟩

/-- A program has one name for a module and a signal where an edge of the plan stands for `plan`, and then
it is the name of the plan module; all other names belong to one or the other. -/
theorem Plan.clashes_of_ofTrace {domain : Domain} {trace : String} {freeId : Nat} {plan : Plan}
    (read : Plan.ofTrace domain trace freeId = .ok plan) :
    ∃ listings, Listing.ofProgram? plan.graph.program = some listings ∧
      ∀ name, name ∈ listings.flatMap Listing.moduleNames ∧
          name ∈ listings.flatMap Listing.signalNames ↔
        name = "plan" ∧ ∃ edge ∈ plan.graph.edges.names, Text.identifier edge = "plan" := by
  refine ⟨plan.graph.listings, plan.graph.ofProgram?_program, fun name => ?_⟩
  rcases Plan.reads_of_ofTrace read with ⟨-, rfl⟩ | ⟨block, reading, -, run, rfl⟩
  · exact (Sound.start freeId).clash_iff
  · exact (Sound.reads (Reading.Reads.start.foldlM run)).clash_iff

def Domain.studio : Domain :=
  ((({} : Domain).addPredicate "plan" []).addOperator "draw" []).addPrecondition "draw" ["plan"]

def studioTrace : String :=
  "\n".intercalate ["ff: found legal plan as follows", "0: draw", "time spent: 0"]

theorem studio_clashes : ∃ plan listings, Plan.ofTrace .studio studioTrace 0 = .ok plan ∧
    Listing.ofProgram? plan.graph.program = some listings ∧
    "plan" ∈ listings.flatMap Listing.moduleNames ∧
    "plan" ∈ listings.flatMap Listing.signalNames := by
  have evaluated : ∃ plan ∈ (Plan.ofTrace .studio studioTrace 0).toOption,
      "plan" ∈ plan.graph.edges.names := by decide +kernel
  obtain ⟨plan, given, registered⟩ := evaluated
  have read := mem_toOption given
  obtain ⟨listings, program, clash⟩ := Plan.clashes_of_ofTrace read
  have both := (clash "plan").mpr ⟨rfl, "plan", registered, by decide +kernel⟩
  exact ⟨plan, listings, read, program, both⟩

end ContingentPlan
