import ContingentPlan.Proofs.Graph.Registry
import ContingentPlan.Proofs.Plan.Passage
import ContingentPlan.Proofs.Trace.Block

/-!
A trace that goes on. What a plan says stays true when more lines follow: its nodes, edges and
conditions stay, an edge can only gain sinks behind the ones it has, and a fault comes back as the same
fault.
-/

namespace ContingentPlan

/-- The later edge is the same one, maybe with more sinks. -/
structure Edge.Gains (edge later : Edge) : Prop where
  name : later.name = edge.name
  kind : later.kind = edge.kind
  sources : later.sources = edge.sources
  active : later.active = edge.active
  sinks : edge.sinks <+: later.sinks

namespace Edge.Gains

variable {edge middle later : Edge}

theorem refl : edge.Gains edge := ⟨rfl, rfl, rfl, rfl, List.prefix_rfl⟩

theorem trans (first : edge.Gains middle) (second : middle.Gains later) : edge.Gains later where
  name := second.name.trans first.name
  kind := second.kind.trans first.kind
  sources := second.sources.trans first.sources
  active := second.active.trans first.active
  sinks := first.sinks.trans second.sinks

theorem addSink (edge : Edge) (node : Nat) : edge.Gains (edge.addSink node) := by
  have begins : edge.sinks <+: extendSinks edge.sinks node := by
    unfold extendSinks
    split
    · exact List.prefix_rfl
    · exact List.prefix_append _ _
  rw [← sinks_addSink] at begins
  cases edge <;> exact ⟨rfl, rfl, rfl, rfl, begins⟩

end Edge.Gains

structure PlanGraph.Extends (graph after : PlanGraph) : Prop where
  nodes : graph.nodes <+: after.nodes
  edges : ∀ name edge, graph.edge? name = some edge →
    ∃ later, after.edge? name = some later ∧ edge.Gains later
  conditions : ∀ name condition, graph.condition? name = some condition →
    after.condition? name = some condition

namespace PlanGraph.Extends

variable {graph middle after : PlanGraph}

theorem refl : graph.Extends graph where
  nodes := List.prefix_rfl
  edges := fun _ edge held => ⟨edge, held, .refl⟩
  conditions := fun _ _ recorded => recorded

theorem trans (first : graph.Extends middle) (second : middle.Extends after) :
    graph.Extends after where
  nodes := first.nodes.trans second.nodes
  edges := by
    intro name edge held
    obtain ⟨between, heldBetween, gains⟩ := first.edges name edge held
    obtain ⟨later, heldLater, more⟩ := second.edges name between heldBetween
    exact ⟨later, heldLater, gains.trans more⟩
  conditions := fun name condition recorded =>
    second.conditions name condition (first.conditions name condition recorded)

theorem addNode (node : Node) : graph.Extends (graph.addNode node) where
  nodes := List.prefix_append _ _
  edges := fun _ edge held => ⟨edge, held, .refl⟩
  conditions := fun _ _ recorded => recorded

theorem connect (name : String) (sink : Nat) : graph.Extends (graph.connect name sink) where
  nodes := List.prefix_rfl
  edges := by
    intro other edge held
    rw [edge?_connect]
    split
    · rename_i same
      subst same
      exact ⟨edge.addSink sink, by rw [held]; rfl, .addSink edge sink⟩
    · exact ⟨edge, held, .refl⟩
  conditions := fun _ _ recorded => recorded

theorem registerCondition (name : String) (sink : Nat) (condition : Condition) :
    graph.Extends (graph.registerCondition name sink condition).2 where
  nodes := List.prefix_rfl
  edges := by
    intro other edge held
    rw [edge?_registerCondition]
    split
    · rename_i same
      subst same
      exact ⟨edge.addSink sink, by rw [held]; rfl, .addSink edge sink⟩
    · exact ⟨edge, held, .refl⟩
  conditions := (Keeps.registerCondition name sink condition).conditions

theorem addActionEdge {name : String} (free : graph.edge? (graph.nameFor name .action) = none)
    (source : Nat) : graph.Extends (graph.addActionEdge name source).2 where
  nodes := List.prefix_rfl
  edges := by
    intro other edge held
    have different : other ≠ graph.nameFor name .action := by
      intro same
      rw [same, free] at held
      cases held
    exact ⟨edge, by rw [edge?_addActionEdge, if_neg different, held], .refl⟩
  conditions := fun _ _ recorded => recorded

theorem foldl_connect (names : List String) (sink : Nat) :
    graph.Extends (names.foldl (·.connect · sink) graph) := by
  induction names generalizing graph with
  | nil => exact .refl
  | cons name names ih => exact (connect name sink).trans ih

end PlanGraph.Extends

theorem Requires.extends {domain : Domain} {graph after : PlanGraph} {node final : Node}
    (requires : Requires domain graph node after final) : graph.Extends after := by
  induction requires with
  | refl => exact .refl
  | step _ _ ih => exact ih.trans (.registerCondition _ _ _)

structure Reading.Continues (reading after : Reading) : Prop where
  graph : reading.graph.Extends after.graph
  warnings : reading.warnings <+: after.warnings
  nextId : reading.nextId ≤ after.nextId

namespace Sound

variable {domain : Domain} {reading after : Reading}

theorem extends_act (sound : Sound reading) {line : Nat} {signature : Signature}
    {parameters : List Binding} {graph : PlanGraph} {node : Node}
    (acted : Reading.Acted domain line signature reading after parameters graph node) :
    reading.graph.Extends after.graph := by
  have connected : reading.graph.Extends reading.connected := .foldl_connect _ _
  have outfitted : reading.connected.Extends reading.outfitted := .addActionEdge sound.free _
  rw [acted.after_eq]
  exact ((connected.trans outfitted).trans acted.requires.extends).trans (.addNode node)

theorem continues_stepped (sound : Sound reading) {line : TraceLine}
    (stepped : Reading.Stepped domain line reading after) : reading.Continues after := by
  obtain ⟨more, warnings, -⟩ := stepped.warnings
  rcases stepped.acted_or_steered with ⟨_, _, _, _, -, acted⟩ | steered
  · exact ⟨sound.extends_act acted, ⟨more, warnings.symm⟩, by rw [acted.nextId_after]; omega⟩
  · exact ⟨by rw [steered.graph]; exact .refl, ⟨more, warnings.symm⟩, by rw [steered.nextId]⟩

theorem continues_foldlM (sound : Sound reading) {lines : List TraceLine}
    (run : lines.foldlM (Reading.step domain) reading = .ok after) : reading.Continues after := by
  induction lines generalizing reading with
  | nil =>
      cases run
      exact ⟨.refl, List.prefix_rfl, Nat.le_refl _⟩
  | cons line lines ih =>
      rw [List.foldlM_cons, except_bind_eq_ok] at run
      obtain ⟨middle, step, rest⟩ := run
      have stepped := Reading.stepped_of_step step
      have first := sound.continues_stepped stepped
      have later := ih (sound.stepped stepped) rest
      exact ⟨first.graph.trans later.graph, first.warnings.trans later.warnings,
        Nat.le_trans first.nextId later.nextId⟩

end Sound

structure Plan.Extends (plan longer : Plan) : Prop where
  graph : plan.graph.Extends longer.graph
  warnings : plan.warnings <+: longer.warnings
  nextId : plan.nextId ≤ longer.nextId

def unlines (lines : List String) : String := "\n".intercalate lines

theorem trimmedLines_unlines_append (lines more : List String) :
    ∃ added, Text.trimmedLines (unlines (lines ++ more)) =
      Text.trimmedLines (unlines lines) ++ added := by
  by_cases noLines : lines = []
  · subst noLines
    exact ⟨_, rfl⟩
  by_cases noMore : more = []
  · exact ⟨[], by simp [noMore]⟩
  · rw [unlines, unlines, String.intercalate_append_of_ne_nil noLines noMore]
    exact Text.trimmedLines_append_newline _ _

namespace Plan

variable {domain : Domain} {freeId : Nat}

theorem extends_of_ofTrace {trace : String} {longer : Plan}
    (read : Plan.ofTrace domain trace freeId = .ok longer) :
    Plan.Extends { found := false, nextId := freeId } longer := by
  rcases Plan.reads_of_ofTrace read with ⟨-, rfl⟩ | ⟨block, reading, -, run, rfl⟩
  · exact ⟨.refl, List.prefix_rfl, Nat.le_refl _⟩
  · have continues := (Sound.start freeId).continues_foldlM run
    exact ⟨continues.graph, continues.warnings, continues.nextId⟩

theorem ofTrace_eq_error_of_append {first longer : String} {block later : List TraceLine}
    {fault : PlanFault} (announced : planBlock? first = some block)
    (goesOn : planBlock? longer = some (block ++ later))
    (fails : Plan.ofTrace domain first freeId = .error fault) :
    Plan.ofTrace domain longer freeId = .error fault := by
  obtain ⟨same, found, run⟩ := ofTrace_eq_error_iff_foldlM.mp fails
  rw [announced, Option.some.injEq] at found
  subst found
  refine ofTrace_eq_error_iff_foldlM.mpr ⟨_, goesOn, ?_⟩
  rw [List.foldlM_append, except_bind_eq_error_iff]
  exact Or.inl run

theorem exists_extends_of_append {first long : String} {block later : List TraceLine}
    {longer : Plan} (announced : planBlock? first = some block)
    (goesOn : planBlock? long = some (block ++ later))
    (read : Plan.ofTrace domain long freeId = .ok longer) :
    ∃ plan, Plan.ofTrace domain first freeId = .ok plan ∧ plan.Extends longer := by
  obtain ⟨final, run, rfl⟩ := foldlM_of_ofTrace read goesOn
  rw [List.foldlM_append, except_bind_eq_ok] at run
  obtain ⟨reading, start, rest⟩ := run
  have sound := Sound.reads (Reading.Reads.start.foldlM start)
  have continues := sound.continues_foldlM rest
  exact ⟨_, ofTrace_of_foldlM announced start,
    ⟨continues.graph, continues.warnings, continues.nextId⟩⟩

theorem monotone_in_lines (domain : Domain) (freeId : Nat) (lines more : List String) :
    (∀ fault, Plan.ofTrace domain (unlines lines) freeId = .error fault →
      Plan.ofTrace domain (unlines (lines ++ more)) freeId = .error fault) ∧
    (∀ longer, Plan.ofTrace domain (unlines (lines ++ more)) freeId = .ok longer →
      ∃ plan, Plan.ofTrace domain (unlines lines) freeId = .ok plan ∧ plan.Extends longer) ∧
    (BlockEnded (Text.lines (unlines lines)) →
      Plan.ofTrace domain (unlines (lines ++ more)) freeId =
        Plan.ofTrace domain (unlines lines) freeId) := by
  cases announced : planBlock? (unlines lines) with
  | none =>
      have read : Plan.ofTrace domain (unlines lines) freeId =
          .ok { found := false, nextId := freeId } := by
        rw [Plan.ofTrace, announced]
      rw [read]
      refine ⟨by simp, fun longer goesOn => ⟨_, rfl, extends_of_ofTrace goesOn⟩, ?_⟩
      intro ended
      exact absurd announced ended.planBlock?_ne_none
  | some block =>
      obtain ⟨later, goesOn, passed⟩ :=
        exists_planBlock?_append (trimmedLines_unlines_append lines more) announced
      refine ⟨fun fault => ofTrace_eq_error_of_append announced goesOn,
        fun longer => exists_extends_of_append announced goesOn, ?_⟩
      intro ended
      rw [passed ended, List.append_nil] at goesOn
      rw [Plan.ofTrace, Plan.ofTrace, announced, goesOn]

end Plan

end ContingentPlan
