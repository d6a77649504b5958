import ContingentPlan.Proofs.Graph.Edges

/-!
What a graph has registered stays registered, whatever operations follow: every name keeps its kind,
and the condition that was recorded first. So a request for a name and kind is always answered alike,
also when it comes from the preconditions of a node that could not be resolved to the end.
-/

namespace ContingentPlan

namespace PlanGraph

theorem condition?_registerCondition (graph : PlanGraph) (name other : String) (sink : Nat)
    (condition : Condition) :
    (graph.registerCondition name sink condition).2.condition? other =
      if other = graph.nameFor name .condition then
        some ((graph.condition? (graph.nameFor name .condition)).getD condition)
      else graph.condition? other :=
  Catalog.find?_insertIfNew graph.conditions _ other condition

/-- The name that a request is answered with is held by an edge. -/
def Settled (graph : PlanGraph) (name : String) (kind : EdgeKind) : Prop :=
  ∃ edge, graph.edge? (graph.nameFor name kind) = some edge

end PlanGraph

@[simp] theorem Edge.kind_addSink (node : Nat) (edge : Edge) : (edge.addSink node).kind = edge.kind := by
  cases edge <;> rfl

@[simp] theorem Edge.name_addSink (node : Nat) (edge : Edge) : (edge.addSink node).name = edge.name := by
  cases edge <;> rfl

theorem Edge.nodup_extendSinks {sinks : List Nat} (unique : sinks.Nodup) (node : Nat) :
    (extendSinks sinks node).Nodup := by
  unfold extendSinks
  split
  · exact unique
  · rename_i unlisted
    rw [(List.perm_append_singleton node sinks).nodup_iff, List.nodup_cons]
    exact ⟨unlisted, unique⟩

structure Keeps (graph after : PlanGraph) : Prop where
  kinds : ∀ name edge, graph.edge? name = some edge →
    ∃ later, after.edge? name = some later ∧ later.kind = edge.kind
  conditions : ∀ name condition, graph.condition? name = some condition →
    after.condition? name = some condition

namespace Keeps

variable {graph middle after : PlanGraph}

theorem refl : Keeps graph graph where
  kinds := fun _ edge held => ⟨edge, held, rfl⟩
  conditions := fun _ _ recorded => recorded

theorem trans (first : Keeps graph middle) (second : Keeps middle after) : Keeps graph after where
  kinds := by
    intro name edge held
    obtain ⟨between, heldBetween, sameKind⟩ := first.kinds name edge held
    obtain ⟨later, heldLater, stillSame⟩ := second.kinds name between heldBetween
    exact ⟨later, heldLater, stillSame.trans sameKind⟩
  conditions := fun name condition recorded =>
    second.conditions name condition (first.conditions name condition recorded)

theorem addNode (node : Node) : Keeps graph (graph.addNode node) where
  kinds := fun _ edge held => ⟨edge, held, rfl⟩
  conditions := fun _ _ recorded => recorded

theorem connect (name : String) (sink : Nat) : Keeps graph (graph.connect name sink) where
  kinds := by
    intro other edge held
    rw [PlanGraph.edge?_connect]
    split
    · rename_i same
      subst same
      exact ⟨edge.addSink sink, by simp [held], Edge.kind_addSink sink edge⟩
    · exact ⟨edge, held, rfl⟩
  conditions := fun _ _ recorded => recorded

theorem addActionEdge (name : String) (source : Nat) :
    Keeps graph (graph.addActionEdge name source).2 where
  kinds := by
    intro other edge held
    rw [PlanGraph.edge?_addActionEdge]
    split
    · rename_i same
      subst same
      exact ⟨_, rfl, (PlanGraph.kind_of_admits (graph.nameFor_admits name .action) held).symm⟩
    · exact ⟨edge, held, rfl⟩
  conditions := fun _ _ recorded => recorded

theorem registerCondition (name : String) (sink : Nat) (condition : Condition) :
    Keeps graph (graph.registerCondition name sink condition).2 where
  kinds := by
    intro other edge held
    rw [PlanGraph.edge?_registerCondition]
    split
    · rename_i same
      subst same
      exact ⟨edge.addSink sink, by simp [held], Edge.kind_addSink sink edge⟩
    · exact ⟨edge, held, rfl⟩
  conditions := by
    intro other first recorded
    rw [PlanGraph.condition?_registerCondition]
    split
    · rename_i same
      subst same
      simp [recorded]
    · exact recorded

theorem answer (keeps : Keeps graph after) {name : String} {kind : EdgeKind} {edge : Edge}
    (held : after.edge? (graph.nameFor name kind) = some edge) (sameKind : edge.kind = kind) :
    after.nameFor name kind = graph.nameFor name kind ∧ after.Settled name kind := by
  obtain ⟨attempt, -, answer, -, refused⟩ := graph.nameFor_spec name kind
  have stillRefused : ∀ earlier < attempt,
      after.admits kind (PlanGraph.nameCandidate name kind earlier) = false := by
    intro earlier below
    have before := refused earlier below
    cases found : graph.edge? (PlanGraph.nameCandidate name kind earlier) with
    | none => simp [PlanGraph.admits, found] at before
    | some other =>
        obtain ⟨later, heldLater, keptKind⟩ := keeps.kinds _ other found
        simpa [PlanGraph.admits, found, heldLater, keptKind] using before
  have admitted : after.admits kind (PlanGraph.nameCandidate name kind attempt) = true := by
    rw [← answer]
    simp [PlanGraph.admits, held, sameKind]
  have same : after.nameFor name kind = graph.nameFor name kind := by
    rw [answer, PlanGraph.nameFor_eq_nameCandidate admitted stillRefused]
  exact ⟨same, edge, by rw [same]; exact held⟩

theorem settled (keeps : Keeps graph after) {name : String} {kind : EdgeKind}
    (settled : graph.Settled name kind) :
    after.nameFor name kind = graph.nameFor name kind ∧ after.Settled name kind := by
  obtain ⟨edge, held⟩ := settled
  obtain ⟨later, heldLater, keptKind⟩ := keeps.kinds _ edge held
  exact keeps.answer heldLater
    (keptKind.trans (PlanGraph.kind_of_admits (graph.nameFor_admits name kind) held))

theorem answer_addActionEdge (graph : PlanGraph) (name : String) (source : Nat) :
    (graph.addActionEdge name source).2.nameFor name .action = graph.nameFor name .action ∧
      (graph.addActionEdge name source).2.Settled name .action := by
  apply (addActionEdge name source).answer
  · rw [PlanGraph.edge?_addActionEdge, if_pos rfl]
  · rfl

theorem answer_registerCondition (graph : PlanGraph) (name : String) (sink : Nat)
    (condition : Condition) :
    (graph.registerCondition name sink condition).2.nameFor name .condition =
        graph.nameFor name .condition ∧
      (graph.registerCondition name sink condition).2.Settled name .condition := by
  apply (registerCondition name sink condition).answer
  · rw [PlanGraph.edge?_registerCondition, if_pos rfl]
  · rw [Edge.kind_addSink]
    cases found : graph.edge? (graph.nameFor name .condition) with
    | none => rfl
    | some edge => exact PlanGraph.kind_of_admits (graph.nameFor_admits name .condition) found

end Keeps

structure WellStored (graph : PlanGraph) : Prop where
  named : ∀ name edge, graph.edge? name = some edge → edge.name = name
  recorded : ∀ name, (∃ condition, graph.condition? name = some condition) ↔
    ∃ edge, graph.edge? name = some edge ∧ edge.kind = .condition
  sinks_nodup : ∀ name edge, graph.edge? name = some edge → edge.sinks.Nodup

namespace WellStored

variable {graph after : PlanGraph}

theorem empty : WellStored ∅ where
  named := by
    intro name edge held
    cases held
  recorded := by
    intro name
    constructor
    · rintro ⟨condition, recorded⟩
      cases recorded
    · rintro ⟨edge, held, -⟩
      cases held
  sinks_nodup := by
    intro name edge held
    cases held

/-- Every operation puts at most one edge in place and leaves the other names alone. -/
theorem place (stored : WellStored graph) {name : String} {edge : Edge}
    (edges : ∀ other, after.edge? other = if other = name then some edge else graph.edge? other)
    (conditions : ∀ other, other ≠ name → after.condition? other = graph.condition? other)
    (recorded : (∃ condition, after.condition? name = some condition) ↔ edge.kind = .condition)
    (named : edge.name = name) (unique : edge.sinks.Nodup) : WellStored after where
  named := by
    intro other found held
    rw [edges] at held
    split at held
    · rename_i same
      cases held
      rw [named, same]
    · exact stored.named other found held
  recorded := by
    intro other
    rw [edges]
    split
    · rename_i same
      subst same
      rw [recorded]
      simp
    · rename_i different
      rw [conditions other different]
      exact stored.recorded other
  sinks_nodup := by
    intro other found held
    rw [edges] at held
    split at held
    · cases held
      exact unique
    · exact stored.sinks_nodup other found held

theorem connect (stored : WellStored graph) (name : String) (sink : Nat) :
    WellStored (graph.connect name sink) := by
  cases found : graph.edge? name with
  | none =>
      have same : graph.connect name sink = graph := by
        have absent : graph.edges.find? name = none := found
        simp [PlanGraph.connect, Catalog.modify, absent]
      rw [same]
      exact stored
  | some edge =>
      have edges (other : String) : (graph.connect name sink).edge? other =
          if other = name then some (edge.addSink sink) else graph.edge? other := by
        rw [PlanGraph.edge?_connect, found, Option.map_some]
      apply stored.place edges
      · intro other _
        rfl
      · change (∃ condition, graph.condition? name = some condition) ↔ _
        rw [stored.recorded name, found, Edge.kind_addSink]
        simp
      · rw [Edge.name_addSink]
        exact stored.named name edge found
      · rw [Edge.sinks_addSink]
        exact Edge.nodup_extendSinks (stored.sinks_nodup name edge found) sink

theorem addActionEdge (stored : WellStored graph) (name : String) (source : Nat) :
    WellStored (graph.addActionEdge name source).2 := by
  apply stored.place (fun other => graph.edge?_addActionEdge name other source)
  · intro other _
    rfl
  · change (∃ condition, graph.condition? (graph.nameFor name .action) = some condition) ↔ _
    rw [stored.recorded]
    constructor
    · rintro ⟨edge, held, kind⟩
      have action := PlanGraph.kind_of_admits (graph.nameFor_admits name .action) held
      rw [kind] at action
      cases action
    · intro kind
      cases kind
  · rfl
  · exact List.nodup_nil

theorem registerCondition (stored : WellStored graph) (name : String) (sink : Nat)
    (condition : Condition) : WellStored (graph.registerCondition name sink condition).2 := by
  apply stored.place (fun other => graph.edge?_registerCondition name other sink condition)
  · intro other different
    rw [PlanGraph.condition?_registerCondition, if_neg different]
  · have recorded : ∃ first, (graph.registerCondition name sink condition).2.condition?
        (graph.nameFor name .condition) = some first :=
      ⟨_, by rw [PlanGraph.condition?_registerCondition, if_pos rfl]⟩
    refine iff_of_true recorded ?_
    rw [Edge.kind_addSink]
    cases found : graph.edge? (graph.nameFor name .condition) with
    | none => rfl
    | some edge => exact PlanGraph.kind_of_admits (graph.nameFor_admits name .condition) found
  · rw [Edge.name_addSink]
    cases found : graph.edge? (graph.nameFor name .condition) with
    | none => rfl
    | some edge => exact stored.named _ edge found
  · rw [Edge.sinks_addSink]
    apply Edge.nodup_extendSinks
    cases found : graph.edge? (graph.nameFor name .condition) with
    | none => exact List.nodup_nil
    | some edge => exact stored.sinks_nodup _ edge found

end WellStored

structure Answer where
  name : String
  kind : EdgeKind
  final : String

inductive Operation
  | addActionEdge (name : String) (source : Nat)
  | connect (edge : String) (sink : Nat)
  | registerCondition (name : String) (sink : Nat) (condition : Condition)
  | resolve (domain : Domain) (node : Node)

def Requirement.answer (requirement : Requirement) : Answer :=
  ⟨requirement.condition.signature, .condition, requirement.edge⟩

def Operation.apply (graph : PlanGraph) : Operation → List Answer × PlanGraph
  | addActionEdge name source =>
      let (final, after) := graph.addActionEdge name source
      ([⟨name, .action, final⟩], after)
  | connect edge sink => ([], graph.connect edge sink)
  | registerCondition name sink condition =>
      let (final, after) := graph.registerCondition name sink condition
      ([⟨name, .condition, final⟩], after)
  | resolve domain node =>
      let resolution := graph.resolve domain node
      (resolution.requirements.map Requirement.answer, resolution.graph)

def Operation.run (graph : PlanGraph) : List Operation → List Answer × PlanGraph
  | [] => ([], graph)
  | operation :: operations =>
      let (answers, middle) := operation.apply graph
      let (more, after) := run middle operations
      (answers ++ more, after)

inductive Develops (graph : PlanGraph) : List Answer → PlanGraph → Prop
  | refl : Develops graph [] graph
  | connect {answers : List Answer} {middle : PlanGraph} (name : String) (sink : Nat) :
      Develops graph answers middle → Develops graph answers (middle.connect name sink)
  | addActionEdge {answers : List Answer} {middle : PlanGraph} (name : String) (source : Nat) :
      Develops graph answers middle →
      Develops graph (answers ++ [⟨name, .action, (middle.addActionEdge name source).1⟩])
        (middle.addActionEdge name source).2
  | registerCondition {answers : List Answer} {middle : PlanGraph} (name : String) (sink : Nat)
      (condition : Condition) : Develops graph answers middle →
      Develops graph
        (answers ++ [⟨name, .condition, (middle.registerCondition name sink condition).1⟩])
        (middle.registerCondition name sink condition).2

namespace Develops

variable {graph middle after : PlanGraph} {answers more : List Answer}

theorem trans (first : Develops graph answers middle) (second : Develops middle more after) :
    Develops graph (answers ++ more) after := by
  induction second with
  | refl => simpa using first
  | connect name sink _ ih => exact ih.connect name sink
  | addActionEdge name source _ ih =>
      rw [← List.append_assoc]
      exact ih.addActionEdge name source
  | registerCondition name sink condition _ ih =>
      rw [← List.append_assoc]
      exact ih.registerCondition name sink condition

theorem keeps (develops : Develops graph answers after) : Keeps graph after := by
  induction develops with
  | refl => exact .refl
  | connect name sink _ ih => exact ih.trans (.connect name sink)
  | addActionEdge name source _ ih => exact ih.trans (.addActionEdge name source)
  | registerCondition name sink condition _ ih =>
      exact ih.trans (.registerCondition name sink condition)

theorem wellStored (develops : Develops graph answers after) (stored : WellStored graph) :
    WellStored after := by
  induction develops with
  | refl => exact stored
  | connect name sink _ ih => exact ih.connect name sink
  | addActionEdge name source _ ih => exact ih.addActionEdge name source
  | registerCondition name sink condition _ ih => exact ih.registerCondition name sink condition

theorem answered (develops : Develops graph answers after) : ∀ answer ∈ answers,
    after.nameFor answer.name answer.kind = answer.final ∧
      after.Settled answer.name answer.kind := by
  -- the answers given before are kept by the step, and the step settles its own request
  have extended {before after : PlanGraph} {answers : List Answer} {own : Answer}
      (keeps : Keeps before after)
      (older : ∀ answer ∈ answers, before.nameFor answer.name answer.kind = answer.final ∧
        before.Settled answer.name answer.kind)
      (newest : after.nameFor own.name own.kind = own.final ∧ after.Settled own.name own.kind) :
      ∀ answer ∈ answers ++ [own], after.nameFor answer.name answer.kind = answer.final ∧
        after.Settled answer.name answer.kind := by
    intro answer member
    rcases List.mem_append.mp member with old | single
    · obtain ⟨final, settled⟩ := older answer old
      obtain ⟨same, still⟩ := keeps.settled settled
      exact ⟨same.trans final, still⟩
    · rw [List.mem_singleton] at single
      rw [single]
      exact newest
  induction develops with
  | refl => simp
  | connect name sink _ ih =>
      intro answer member
      obtain ⟨final, settled⟩ := ih answer member
      obtain ⟨same, still⟩ := (Keeps.connect name sink).settled settled
      exact ⟨same.trans final, still⟩
  | addActionEdge name source _ ih =>
      exact extended (.addActionEdge name source) ih (Keeps.answer_addActionEdge _ name source)
  | registerCondition name sink condition _ ih =>
      exact extended (.registerCondition name sink condition) ih
        (Keeps.answer_registerCondition _ name sink condition)

/-- A tuple that states a known requirement makes no request, and one that cannot be grounded ends
the resolution with the edges that were registered before. -/
theorem addTuples (domain : Domain) (resolution : Resolution) (tuples : List ConditionTuple) :
    ∃ added, (resolution.addTuples domain tuples).requirements = resolution.requirements ++ added ∧
      Develops resolution.graph (added.map Requirement.answer)
        (resolution.addTuples domain tuples).graph := by
  induction tuples generalizing resolution with
  | nil => exact ⟨[], by simp [Resolution.addTuples], .refl⟩
  | cons tuple tuples ih =>
      cases tuple with
      | nil => exact ih resolution
      | cons head arguments =>
          simp only [Resolution.addTuples]
          split
          · exact ⟨[], by simp, .refl⟩
          · rename_i condition grounded
            obtain ⟨added, requirements, develops⟩ := ih (resolution.require condition)
            unfold Resolution.require at requirements develops ⊢
            split
            · rename_i stated
              rw [if_pos stated] at requirements develops
              exact ⟨added, requirements, develops⟩
            · rename_i fresh
              rw [if_neg fresh] at requirements develops
              refine ⟨_ :: added, by rw [requirements, List.append_assoc]; rfl, ?_⟩
              exact (Develops.refl.registerCondition _ _ condition).trans develops

theorem resolve (graph : PlanGraph) (domain : Domain) (node : Node) :
    Develops graph ((graph.resolve domain node).requirements.map Requirement.answer)
      (graph.resolve domain node).graph := by
  unfold PlanGraph.resolve
  split
  · exact .refl
  · rename_i tuples found
    obtain ⟨added, requirements, develops⟩ := addTuples domain { node, graph } tuples
    rw [requirements]
    exact develops

theorem apply (graph : PlanGraph) (operation : Operation) :
    Develops graph (operation.apply graph).1 (operation.apply graph).2 := by
  cases operation with
  | addActionEdge name source => exact Develops.refl.addActionEdge name source
  | connect edge sink => exact Develops.refl.connect edge sink
  | registerCondition name sink condition => exact Develops.refl.registerCondition name sink condition
  | resolve domain node => exact resolve graph domain node

theorem run (graph : PlanGraph) (operations : List Operation) :
    Develops graph (Operation.run graph operations).1 (Operation.run graph operations).2 := by
  induction operations generalizing graph with
  | nil => exact .refl
  | cons operation operations ih =>
      exact (apply graph operation).trans (ih (operation.apply graph).2)

end Develops

theorem Operation.run_append (graph : PlanGraph) (earlier later : List Operation) :
    run graph (earlier ++ later) =
      ((run graph earlier).1 ++ (run (run graph earlier).2 later).1,
        (run (run graph earlier).2 later).2) := by
  induction earlier generalizing graph with
  | nil => rfl
  | cons operation operations ih => simp [run, ih]

/-- Requests for the same name and kind have the same answer, and it is registered for good. -/
structure Consistent (answers : List Answer) (graph : PlanGraph) : Prop where
  alike : ∀ first ∈ answers, ∀ second ∈ answers, first.name = second.name →
    first.kind = second.kind → first.final = second.final
  registered : ∀ answer ∈ answers,
    ∃ edge, graph.edge? answer.final = some edge ∧ edge.kind = answer.kind

theorem Develops.consistent {graph after : PlanGraph} {answers : List Answer}
    (develops : Develops graph answers after) : Consistent answers after where
  alike := by
    intro first firstMember second secondMember sameName sameKind
    rw [← (develops.answered first firstMember).1, ← (develops.answered second secondMember).1,
      sameName, sameKind]
  registered := by
    intro answer member
    obtain ⟨final, edge, held⟩ := develops.answered answer member
    have kind := PlanGraph.kind_of_admits (after.nameFor_admits answer.name answer.kind) held
    rw [final] at held
    exact ⟨edge, held, kind⟩

theorem PlanGraph.registry_of_operations (earlier later : List Operation) :
    WellStored (Operation.run ∅ (earlier ++ later)).2 ∧
      Keeps (Operation.run ∅ earlier).2 (Operation.run ∅ (earlier ++ later)).2 ∧
      Consistent (Operation.run ∅ (earlier ++ later)).1
        (Operation.run ∅ (earlier ++ later)).2 := by
  have whole := Develops.run ∅ (earlier ++ later)
  refine ⟨whole.wellStored .empty, ?_, whole.consistent⟩
  rw [Operation.run_append]
  exact (Develops.run _ later).keeps

end ContingentPlan
