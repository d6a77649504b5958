import ContingentPlan.Proofs.Controller.Layout
import ContingentPlan.Proofs.Controller.Signals
import ContingentPlan.Proofs.Plan.Numbering
import Mathlib.Data.List.Forall2

/-!
The program of a plan says what the plan says. A reader finds one module for the plan and one for each
node, with all ids, signals and edges, and every name that a module uses is declared once.
-/

namespace ContingentPlan

open scoped List

def numberBetween? (opening ending name : String) : Option Nat :=
  match (Text.dropOpening opening.toList name.toList).bind (Text.dropEnding ending) with
  | some digits =>
      if digits ≠ [] ∧ digits.all Char.isDigit then some (Nat.ofDigitChars 10 digits 0) else none
  | none => none

def completeId? : String → Option Nat := numberBetween? "a" "_complete"

def dispatchId? : String → Option Nat := numberBetween? "a" "_dispatch"

def moduleId? : String → Option Nat := numberBetween? "action" ""

theorem numberBetween?_eq {opening ending name : String} {id : Nat}
    (chars : name.toList = opening.toList ++ (Nat.toDigits 10 id ++ ending.toList)) :
    numberBetween? opening ending name = some id := by
  have digits : (Nat.toDigits 10 id).all Char.isDigit = true := by
    rw [List.all_eq_true]
    exact fun digit member => Nat.isDigit_of_mem_toDigits (by omega) (by omega) member
  rw [numberBetween?, chars, Text.dropOpening_append, Option.bind_some, Text.dropEnding_append]
  dsimp only
  rw [if_pos ⟨Nat.toDigits_ne_nil, digits⟩, Nat.ofDigitChars_ten_toDigits]

namespace Node

theorem toList_dispatchSignal (node : Node) :
    node.dispatchSignal.toList = "a".toList ++ (Nat.toDigits 10 node.id ++ "_dispatch".toList) := by
  simp [dispatchSignal]

theorem toList_completeSignal (node : Node) :
    node.completeSignal.toList = "a".toList ++ (Nat.toDigits 10 node.id ++ "_complete".toList) := by
  simp [completeSignal]

theorem toList_moduleName (node : Node) :
    node.moduleName.toList = "action".toList ++ (Nat.toDigits 10 node.id ++ "".toList) := by
  simp [moduleName]

theorem dispatchSignal_ne_completeSignal (node : Node) :
    node.dispatchSignal ≠ node.completeSignal := by
  intro same
  have chars := congrArg String.toList same
  simp [toList_dispatchSignal, toList_completeSignal] at chars

theorem isIdentifier_of_toList {name : String} {first : Char} {opening ending : List Char} {id : Nat}
    (chars : name.toList = first :: opening ++ (Nat.toDigits 10 id ++ ending))
    (letter : Text.isLetter first = true)
    (legal : (opening ++ ending).all Text.isIdentifierChar = true) :
    Text.IsIdentifier name := by
  refine ⟨first, opening ++ (Nat.toDigits 10 id ++ ending), chars, letter, ?_⟩
  intro character member
  rw [List.all_eq_true] at legal
  rw [List.mem_append, List.mem_append] at member
  rcases member with opens | digit | ends
  · exact legal character (List.mem_append_left _ opens)
  · exact Text.isIdentifierChar_of_isDigit
      (Nat.isDigit_of_mem_toDigits (by omega) (by omega) digit)
  · exact legal character (List.mem_append_right _ ends)

end Node

namespace PlanGraph

def actionModule (graph : PlanGraph) (node : Node) : ActionModule where
  name := node.moduleName
  dispatch := node.dispatchSignal
  complete := node.completeSignal
  inputs := node.inputEdges.map graph.signal
  outputs := node.output.map graph.signal

theorem ofGraph_eq (graph : PlanGraph) :
    Controller.ofGraph graph =
      { signals := graph.signals.map Prod.snd, actions := graph.nodes.map graph.actionModule } :=
  rfl

theorem legal_actionModule (graph : PlanGraph) (node : Node) : (graph.actionModule node).Legal where
  name := Node.isIdentifier_of_toList node.toList_moduleName (by decide) (by decide)
  dispatch := Node.isIdentifier_of_toList node.toList_dispatchSignal (by decide) (by decide)
  complete := Node.isIdentifier_of_toList node.toList_completeSignal (by decide) (by decide)
  inputs := by simp [actionModule, isIdentifier_signal]
  outputs := by simp [actionModule, isIdentifier_signal]

theorem legal_ofGraph (graph : PlanGraph) : (Controller.ofGraph graph).Legal where
  signals := by
    rw [ofGraph_eq, map_snd_signals]
    simp [isIdentifier_signal]
  actions := by
    rw [ofGraph_eq]
    simp [legal_actionModule]

theorem names_listing (graph : PlanGraph) (keyword : Keyword) :
    (Controller.ofGraph graph).listing.names keyword =
      match keyword with
      | .input => "SOURCE" :: graph.nodes.map Node.completeSignal
      | .output => "SINK" :: graph.nodes.map Node.dispatchSignal
      | .signal => graph.signals.map Prod.snd
      | .run => graph.nodes.map Node.moduleName
      | _ => [] := by
  rw [Controller.names_listing, Controller.inputs, Controller.outputs, ofGraph_eq, List.map_map,
    List.map_map, List.map_map]
  rfl

end PlanGraph

namespace Sound

variable {reading : Reading} {node : Node}

theorem edges_registered (sound : Sound reading) (member : node ∈ reading.graph.nodes) :
    ∀ edge ∈ node.inputEdges ++ node.output, edge ∈ reading.graph.edges.names := by
  intro name among
  rw [Catalog.mem_names_iff]
  rcases List.mem_append.mp among with input | output
  · rw [sound.linked.input_iff node member name, PlanGraph.mem_sinksAt_iff] at input
    obtain ⟨edge, found, -⟩ := input
    exact ⟨edge, found⟩
  · obtain ⟨own, single, producers, -⟩ := sound.completed.output node member
    rw [single, List.mem_singleton] at output
    obtain ⟨edge, found, -⟩ := PlanGraph.producers?_eq_some_iff.mp producers
    exact ⟨edge, output ▸ found⟩

theorem nodup_edges (sound : Sound reading) (member : node ∈ reading.graph.nodes) :
    (node.inputEdges ++ node.output).Nodup := by
  obtain ⟨own, single, producers, -⟩ := sound.completed.output node member
  have apart : own ∉ node.inputEdges := by
    intro input
    rw [sound.linked.input_iff node member own] at input
    have earlier := sound.forward own [node.id] producers node.id List.mem_cons_self node.id input
    omega
  rw [single, List.nodup_append]
  refine ⟨sound.linked.input_nodup node member, by simp, ?_⟩
  intro input listed output among same
  rw [List.mem_singleton] at among
  exact apart (among ▸ same ▸ listed)

end Sound

/-- What the listing of a node's module says. Every name that the module uses is declared once, and its
edges are declared by the plan module. -/
structure ReadsNode (graph : PlanGraph) (top : Listing) (node : Node) (listing : Listing) : Prop where
  name : listing.name = node.moduleName
  inputs : listing.names .input = node.inputEdges.map graph.signal ++ [node.completeSignal]
  outputs : listing.names .output = node.output.map graph.signal ++ [node.dispatchSignal]
  awaited : listing.names .await = node.inputEdges.map graph.signal ++ [node.completeSignal]
  emitted : listing.names .emit = node.dispatchSignal :: node.output.map graph.signal
  declared : ∀ name ∈ listing.names .await ++ listing.names .emit,
    (listing.names .input ++ listing.names .output).count name = 1
  apart : ∀ name ∈ listing.names .input, name ∉ listing.names .output
  inScope : ∀ edge ∈ node.inputEdges ++ node.output, graph.signal edge ∈ top.names .signal

/-- What a program says about a graph: one listing for the plan, then one for each node. -/
structure ReadsGraph (graph : PlanGraph) (top : Listing) (listings : List Listing) : Prop where
  count : (top :: listings).length = graph.nodes.length + 1
  plan : top.name = "plan"
  names : listings.map Listing.name = graph.nodes.map Node.moduleName
  ascending : (graph.nodes.map Node.id).Pairwise (· < ·)
  inputs : top.names .input = "SOURCE" :: graph.nodes.map Node.completeSignal
  outputs : top.names .output = "SINK" :: graph.nodes.map Node.dispatchSignal
  runs : top.names .run = graph.nodes.map Node.moduleName
  inputIds : (top.names .input).filterMap completeId? = graph.nodes.map Node.id
  outputIds : (top.names .output).filterMap dispatchId? = graph.nodes.map Node.id
  runIds : (top.names .run).filterMap moduleId? = graph.nodes.map Node.id
  signals : top.names .signal = graph.edges.names.map graph.signal
  sorted : graph.edges.names.Pairwise (· < ·)
  once : (top.names .signal).Nodup
  nodes : List.Forall₂ (ReadsNode graph top) graph.nodes listings

theorem nodup_interface {inputs outputs : List String} {complete dispatch : String}
    (edges : (inputs ++ outputs).Nodup) (different : dispatch ≠ complete)
    (completes : complete ∉ inputs ++ outputs) (dispatches : dispatch ∉ inputs ++ outputs) :
    (inputs ++ [complete] ++ (outputs ++ [dispatch])).Nodup := by
  have order : (inputs ++ [complete] ++ (outputs ++ [dispatch])).Perm
      (complete :: dispatch :: (inputs ++ outputs)) := by
    calc inputs ++ [complete] ++ (outputs ++ [dispatch])
        _ = inputs ++ complete :: (outputs ++ [dispatch]) := by simp
        _ ~ complete :: (inputs ++ (outputs ++ [dispatch])) := List.perm_middle
        _ = complete :: (inputs ++ outputs ++ [dispatch]) := by simp
        _ ~ complete :: dispatch :: (inputs ++ outputs) :=
          (List.perm_append_singleton dispatch (inputs ++ outputs)).cons complete
  rw [order.nodup_iff, List.nodup_cons, List.nodup_cons, List.mem_cons, not_or]
  exact ⟨⟨Ne.symm different, completes⟩, dispatches, edges⟩

namespace Sound

variable {reading : Reading} {node : Node}

theorem nodup_names_listing (sound : Sound reading) (member : node ∈ reading.graph.nodes) :
    ((reading.graph.actionModule node).listing.names .input ++
      (reading.graph.actionModule node).listing.names .output).Nodup := by
  have registered := sound.edges_registered member
  have unused : ∀ identifier ∈ (node.inputEdges ++ node.output).map reading.graph.signal,
      identifier ∉ reading.graph.interfaceNames := by
    intro identifier among
    obtain ⟨edge, listed, rfl⟩ := List.mem_map.mp among
    exact (PlanGraph.signal_spec (registered edge listed)).1
  have interface : node.completeSignal ∈ reading.graph.interfaceNames ∧
      node.dispatchSignal ∈ reading.graph.interfaceNames := by
    constructor
    all_goals
      apply List.mem_append_right
      exact List.mem_flatMap.mpr ⟨node, member, by simp⟩
  have edges : ((node.inputEdges ++ node.output).map reading.graph.signal).Nodup := by
    apply (sound.nodup_edges member).map_on
    intro edge listed other listedToo same
    exact PlanGraph.signal_injective (registered edge listed) (registered other listedToo) same
  rw [ActionModule.names_listing, ActionModule.names_listing]
  rw [List.map_append] at edges unused
  exact nodup_interface edges node.dispatchSignal_ne_completeSignal
    (fun among => unused _ among interface.1) (fun among => unused _ among interface.2)

theorem readsNode (sound : Sound reading) (member : node ∈ reading.graph.nodes) :
    ReadsNode reading.graph (Controller.ofGraph reading.graph).listing node
      (reading.graph.actionModule node).listing where
  name := rfl
  inputs := ActionModule.names_listing _ .input
  outputs := ActionModule.names_listing _ .output
  awaited := ActionModule.names_listing _ .await
  emitted := ActionModule.names_listing _ .emit
  declared := by
    intro name used
    apply List.count_eq_one_of_mem (sound.nodup_names_listing member)
    simp only [ActionModule.names_listing, List.mem_append, List.mem_cons, List.not_mem_nil,
      or_false] at used ⊢
    tauto
  apart := by
    intro name input output
    exact List.disjoint_of_nodup_append (sound.nodup_names_listing member) input output
  inScope := by
    intro edge among
    rw [PlanGraph.names_listing]
    exact List.mem_map_of_mem (PlanGraph.signal_mem (sound.edges_registered member edge among))

end Sound

theorem filterMap_map_eq {numbered : Node → String} {read? : String → Option Nat}
    (reads : ∀ node, read? (numbered node) = some node.id) (nodes : List Node) :
    (nodes.map numbered).filterMap read? = nodes.map Node.id := by
  have ids : read? ∘ numbered = some ∘ Node.id := funext reads
  rw [List.filterMap_map, ids, List.filterMap_eq_map]

theorem Sound.readsGraph {reading : Reading} (sound : Sound reading)
    (ascending : (reading.graph.nodes.map Node.id).Pairwise (· < ·)) :
    ReadsGraph reading.graph (Controller.ofGraph reading.graph).listing
      (reading.graph.nodes.map fun node => (reading.graph.actionModule node).listing) where
  count := by simp
  plan := rfl
  names := by
    rw [List.map_map]
    rfl
  ascending := ascending
  inputs := reading.graph.names_listing .input
  outputs := reading.graph.names_listing .output
  runs := reading.graph.names_listing .run
  inputIds := by
    rw [PlanGraph.names_listing, List.filterMap_cons_none (by decide +kernel)]
    exact filterMap_map_eq (fun node => numberBetween?_eq node.toList_completeSignal) _
  outputIds := by
    rw [PlanGraph.names_listing, List.filterMap_cons_none (by decide +kernel)]
    exact filterMap_map_eq (fun node => numberBetween?_eq node.toList_dispatchSignal) _
  runIds := by
    rw [PlanGraph.names_listing]
    exact filterMap_map_eq (fun node => numberBetween?_eq node.toList_moduleName) _
  signals := by
    rw [PlanGraph.names_listing]
    exact reading.graph.map_snd_signals
  sorted := by
    rw [Catalog.names, List.pairwise_map]
    exact reading.graph.edges.ascending
  once := by
    rw [PlanGraph.names_listing]
    exact reading.graph.nodup_map_snd_signals
  nodes := by
    rw [List.forall₂_map_right_iff, List.forall₂_same]
    exact fun node member => sound.readsNode member

theorem PlanGraph.ascii_program (graph : PlanGraph) :
    ∀ character ∈ graph.program.toList, character.toNat < 0x80 :=
  Controller.ascii_render graph.legal_ofGraph

theorem PlanGraph.ofProgram?_program (graph : PlanGraph) :
    Listing.ofProgram? graph.program = some ((Controller.ofGraph graph).listing ::
      graph.nodes.map fun node => (graph.actionModule node).listing) := by
  have actions : (Controller.ofGraph graph).actions = graph.nodes.map graph.actionModule := rfl
  rw [program, Controller.ofProgram?_render graph.legal_ofGraph, actions, List.map_map]
  rfl

theorem Plan.readsProgram_of_ofTrace {domain : Domain} {trace : String} {freeId : Nat} {plan : Plan}
    (read : Plan.ofTrace domain trace freeId = .ok plan) :
    ∃ top listings, Listing.ofProgram? plan.graph.program = some (top :: listings) ∧
      ReadsGraph plan.graph top listings := by
  refine ⟨_, _, plan.graph.ofProgram?_program, ?_⟩
  rcases Plan.reads_of_ofTrace read with ⟨-, rfl⟩ | ⟨block, reading, -, run, rfl⟩
  · exact (Sound.start freeId).readsGraph List.Pairwise.nil
  · have reads := Reading.Reads.start.foldlM run
    rw [List.nil_append] at reads
    apply (Sound.reads reads).readsGraph
    rw [(Recorded.reads reads).ids]
    exact List.pairwise_lt_range'

theorem detour_readsProgram : ∃ plan top listings, Plan.ofTrace .rooms detourTrace 0 = .ok plan ∧
    Listing.ofProgram? plan.graph.program = some (top :: listings) ∧ listings.length = 4 ∧
    ReadsGraph plan.graph top listings := by
  obtain ⟨-, plan, -, -, read, -, count⟩ := exists_detour
  obtain ⟨top, listings, program, reads⟩ := Plan.readsProgram_of_ofTrace read
  have length := reads.count
  rw [List.length_cons, count, Nat.add_right_cancel_iff] at length
  exact ⟨plan, top, listings, read, program, length, reads⟩

end ContingentPlan
