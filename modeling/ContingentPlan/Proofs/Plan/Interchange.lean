import ContingentPlan.Proofs.Document
import ContingentPlan.Proofs.Json.RoundTrip
import ContingentPlan.Proofs.Reading.Run

/-!
Plan data survives its way through JSON, whatever library writes and reads it. The export of a plan comes
back from its indented text, and every value that is sent on its own from its text on one line.
-/

namespace ContingentPlan

namespace Reading

theorem Reads.dispatches {domain : Domain} {freeId : Nat} {lines : List TraceLine} {reading : Reading}
    (reads : Reads domain freeId lines reading) :
    ∀ node ∈ reading.graph.nodes, node.dispatch.actionId = node.id ∧ node.dispatch.Untimed := by
  induction reads with
  | start => exact fun node member => nomatch member
  | line _ stepped ih =>
      rcases stepped.acted_or_steered with ⟨_, _, _, added, _, acted⟩ | steered
      · intro node member
        rw [acted.nodes_after, mem_append_singleton] at member
        rcases member with older | rfl
        · exact ih node older
        · rw [acted.dispatch_eq, acted.id_eq]
          exact ⟨rfl, rfl, rfl⟩
      · rw [steered.graph]
        exact ih

end Reading

theorem Plan.dispatches_of_ofTrace {domain : Domain} {trace : String} {freeId : Nat} {plan : Plan}
    (read : Plan.ofTrace domain trace freeId = .ok plan) :
    ∀ node ∈ plan.graph.nodes, node.dispatch.actionId = node.id ∧ node.dispatch.Untimed := by
  rcases Plan.reads_of_ofTrace read with ⟨-, rfl⟩ | ⟨block, reading, -, run, rfl⟩
  · exact fun node member => nomatch member
  · exact (Reading.Reads.start.foldlM run).dispatches

/-- The values may hold any texts. Their ids fit 64 bits, and their times are the placeholders that every
dispatch of a plan has. -/
theorem Plan.data_from_json {json : Codec} (documented : Json.Documented json) :
    (∀ (domain : Domain) (trace : String) (freeId : Nat) (plan : Plan),
      Plan.ofTrace domain trace freeId = .ok plan →
      (∀ node ∈ plan.graph.nodes, node.id < Nat.pow 2 64) →
      json.Returns (json.pretty (Export.ofGraph plan.graph).toDocument) Export.ofDocument?
        (Export.ofGraph plan.graph)) ∧
    (∀ node : Node, node.id < Nat.pow 2 64 → node.dispatch.actionId < Nat.pow 2 64 →
      node.dispatch.Untimed → json.Returns (json.compact node.toDocument) Node.ofDocument? node) ∧
    (∀ edge : Edge, (∀ node ∈ edge.sources ++ edge.sinks, node < Nat.pow 2 64) →
      json.Returns (json.compact edge.toDocument) Edge.ofDocument? edge) ∧
    (∀ condition : Condition,
      json.Returns (json.compact condition.toDocument) Condition.ofDocument? condition) ∧
    (∀ dispatch : Dispatch, dispatch.actionId < Nat.pow 2 64 → dispatch.Untimed →
      json.Returns (json.compact dispatch.toDocument) Dispatch.ofDocument? dispatch) ∧
    (∀ binding : Binding,
      json.Returns (json.compact binding.toDocument) Binding.ofDocument? binding) ∧
    ∀ domain : Domain, json.Returns (json.compact domain.toDocument) Domain.ofDocument? domain := by
  refine ⟨?_, ?_, ?_, ?_, ?_, ?_, ?_⟩
  · intro domain trace freeId plan read fits
    refine ((Export.lossless _ ?_).through documented).2
    intro dispatch member
    obtain ⟨node, stored, rfl⟩ := List.mem_map.mp member
    obtain ⟨own, untimed⟩ := Plan.dispatches_of_ofTrace read node stored
    exact Dispatch.lossless _ (own ▸ fits node stored) untimed
  · exact fun node fits own untimed =>
      ((Node.lossless _ fits (Dispatch.lossless _ own untimed)).through documented).1
  · exact fun edge fits => ((Edge.lossless _ fits).through documented).1
  · exact fun condition => ((condition.lossless _).through documented).1
  · exact fun dispatch fits untimed => ((Dispatch.lossless _ fits untimed).through documented).1
  · exact fun binding => ((binding.lossless _).through documented).1
  · exact fun domain => ((domain.lossless _).through documented).1

def Domain.crates : Domain :=
  ((({} : Domain).addPredicate "at" ["\x01r", "to \"\\"]).addOperator "move" ["r", "\n"]).addPrecondition
    "move" ["at", "r"]

def cratesTrace : String := "\n".intercalate [planAnnouncement, "0: move \\\"r\x02\" é"]

def crateEdge : Edge := .action "e\x1f" [18446744073709551614] [18446744073709551615] false

theorem crates_from_json :
    Json.Documented Json.codec ∧
    (∃ plan, Plan.ofTrace .crates cratesTrace 18446744073709551614 = .ok plan ∧
      plan.graph.nodes.map Node.id = [18446744073709551614] ∧
      Json.codec.Returns (Json.codec.pretty (Export.ofGraph plan.graph).toDocument) Export.ofDocument?
        (Export.ofGraph plan.graph) ∧
      ∀ node ∈ plan.graph.nodes,
        Json.codec.Returns (Json.codec.compact node.toDocument) Node.ofDocument? node) ∧
    Json.codec.Returns (Json.codec.compact crateEdge.toDocument) Edge.ofDocument? crateEdge := by
  have evaluated : (Plan.ofTrace .crates cratesTrace 18446744073709551614).toOption.map
      (·.graph.nodes.map Node.id) = some [18446744073709551614] := by decide +kernel
  obtain ⟨exports, nodes, edges, -⟩ := Plan.data_from_json Json.codec_documented
  refine ⟨Json.codec_documented, ?_, edges crateEdge (by decide)⟩
  cases read : Plan.ofTrace .crates cratesTrace 18446744073709551614 with
  | error fault => simp [read, Except.toOption] at evaluated
  | ok plan =>
      have ids : plan.graph.nodes.map Node.id = [18446744073709551614] := by
        simpa [read, Except.toOption] using evaluated
      have fits : ∀ node ∈ plan.graph.nodes, node.id < Nat.pow 2 64 := by
        intro node member
        have id := List.mem_map_of_mem member (f := Node.id)
        rw [ids, List.mem_singleton] at id
        rw [id]
        decide
      refine ⟨plan, rfl, ids, exports _ _ _ plan read fits, ?_⟩
      intro node member
      obtain ⟨own, untimed⟩ := Plan.dispatches_of_ofTrace read node member
      exact nodes node (fits node member) (own ▸ fits node member) untimed

end ContingentPlan
