import ContingentPlan.Proofs.Plan.Passage

/-!
Which observation outcome an action waits for is settled by the lines before it alone: by the last one
that is an action, a shed, or a pop that exchanges two continuations, and by the facts observed since
the last shed.
-/

namespace ContingentPlan

/-- The lines of a block that bear on the gating of a later action. -/
inductive Event
  | action (observed : Option String)
  | shed
  | turn
deriving DecidableEq

def Event.fact? : Event → Option String
  | action observed => observed
  | shed => none
  | turn => none

namespace Reading

/-- A pop is an event only where two continuations are live. -/
def event? (reading : Reading) (line : TraceLine) : Option Event :=
  match line.token? with
  | some (.action signature) => some (.action signature.observedFact?)
  | some .shed => some .shed
  | some .pop => if 2 ≤ reading.continuations.length then some .turn else none
  | _ => none

def remember (domain : Domain) (reading : Reading) (past : List Event) : List TraceLine → List Event
  | [] => past
  | line :: lines =>
      let past := (reading.event? line).toList ++ past
      match reading.step domain line with
      | .ok next => remember domain next past lines
      | .error _ => past

end Reading

def history (domain : Domain) (freeId : Nat) (lines : List TraceLine) : List Event :=
  Reading.remember domain { nextId := freeId } [] lines

def governing (past : List Event) : List String :=
  (past.takeWhile (· ≠ .shed)).filterMap Event.fact?

def gatingAfter : List Event → Reading.Gating
  | .action (some fact) :: _ => .outcome true fact
  | .turn :: past =>
      match governing past with
      | [] => .missing
      | fact :: _ => .outcome false fact
  | _ => .free

def Reading.Gating.warnings (line : Nat) (action : String) : Gating → List Warning
  | missing => [{ line, anomaly := .missingObservation action }]
  | free => []
  | outcome _ _ => []

theorem Reading.missingObservations_eq (reading : Reading) (line : Nat) (action : String) :
    reading.missingObservations line action = reading.gating.warnings line action := by
  obtain ⟨continuations, observations, gated, outcome, branching, merging, nextId, graph,
    warnings⟩ := reading
  cases gated with
  | false => rfl
  | true => cases observations <;> rfl

structure Governed (past : List Event) (reading : Reading) : Prop where
  observations : reading.observations = governing past
  gating : reading.gating = gatingAfter past

namespace Governed

variable {past : List Event} {reading after : Reading} {domain : Domain} {line : TraceLine}

theorem start (freeId : Nat) : Governed [] { nextId := freeId } := ⟨rfl, rfl⟩

theorem steer (governed : Governed past reading) (observations : after.observations = reading.observations)
    (gated : after.gated = reading.gated) (outcome : after.outcome = reading.outcome) :
    Governed past after where
  observations := observations.trans governed.observations
  gating := by
    rw [← governed.gating]
    simp [Reading.gating, observations, gated, outcome]

theorem ramificate (governed : Governed past reading) (line : Nat) :
    Governed past (reading.ramificate line) := by
  unfold Reading.ramificate
  split
  · split
    · exact governed.steer rfl rfl rfl
    · exact governed.steer rfl rfl rfl
  · exact governed.steer rfl rfl rfl

theorem pop (governed : Governed past reading) (line : Nat) (token : String) :
    Governed ((if 2 ≤ reading.continuations.length then some Event.turn else none).toList ++ past)
      (reading.pop line token) := by
  match stack : reading.continuations with
  | [] =>
      simp only [Reading.pop, stack]
      exact governed.steer rfl rfl rfl
  | [_] =>
      simp only [Reading.pop, stack]
      exact governed.steer rfl rfl rfl
  | top :: below :: rest =>
      have live : 2 ≤ (top :: below :: rest).length := by simp
      simp only [Reading.pop, stack, if_pos live]
      refine ⟨governed.observations, ?_⟩
      cases facts : governing past with
      | nil => simp [Reading.gating, gatingAfter, governed.observations, facts]
      | cons fact older => simp [Reading.gating, gatingAfter, governed.observations, facts]

theorem act (governed : Governed past reading) {number : Nat} {signature : Signature}
    {parameters : List Binding} {graph : PlanGraph} {node : Node}
    (acted : Reading.Acted domain number signature reading after parameters graph node) :
    Governed (.action signature.observedFact? :: past) after := by
  rw [acted.after_eq]
  cases observed : signature.observedFact? with
  | none => exact ⟨governed.observations, rfl⟩
  | some fact =>
      refine ⟨?_, rfl⟩
      simp [governing, Event.fact?, governed.observations]

theorem stepped (governed : Governed past reading)
    (stepped : Reading.Stepped domain line reading after) :
    Governed ((reading.event? line).toList ++ past) after := by
  cases stepped with
  | malformed token =>
      rw [Reading.event?, token]
      exact governed.steer rfl rfl rfl
  | ramificate token =>
      rw [Reading.event?, token]
      exact governed.ramificate line.number
  | shed token =>
      rw [Reading.event?, token]
      exact ⟨rfl, rfl⟩
  | pop token =>
      rw [Reading.event?, token]
      exact governed.pop line.number _
  | assume token =>
      rw [Reading.event?, token]
      exact governed.steer rfl rfl rfl
  | action token acted =>
      rw [Reading.event?, token]
      exact governed.act acted

theorem foldlM (governed : Governed past reading) {lines : List TraceLine}
    (run : lines.foldlM (Reading.step domain) reading = .ok after) :
    Governed (reading.remember domain past lines) after := by
  induction lines generalizing past reading with
  | nil =>
      cases run
      exact governed
  | cons line lines ih =>
      rw [List.foldlM_cons, except_bind_eq_ok] at run
      obtain ⟨middle, step, rest⟩ := run
      rw [Reading.remember, step]
      exact ih (governed.stepped (Reading.stepped_of_step step)) rest

end Governed

/-- What a gating does to the node of a line: `ungated` is the node with its parents and its
preconditions, and `graph` the graph that it is stored in. -/
structure GatedBy (gating : Reading.Gating) (line : Nat) (ungated : Resolution) (graph : PlanGraph)
    (plan : Plan) (node : Node) : Prop where
  inputs : node = gating.edge?.elim ungated.node ungated.node.addInput
  waits : ∀ name, gating.edge? = some name → name ∈ node.inputEdges ∧
    ∃ edge, plan.graph.edge? name = some edge ∧ edge.kind = .condition ∧ node.id ∈ edge.sinks
  unasked : gating.edge? = none → graph = ungated.graph.addNode node
  warnings : plan.report.warnings.filter (·.line = line) = gating.warnings line node.name

theorem Sound.condition_of_gating {reading : Reading} (sound : Sound reading) {node : Node}
    (member : node ∈ reading.graph.nodes) {gating : Reading.Gating} {name : String}
    (asked : gating.edge? = some name) (input : name ∈ node.inputEdges) :
    ∃ edge, reading.graph.edge? name = some edge ∧ edge.kind = .condition ∧
      node.id ∈ edge.sinks := by
  have fed := (sound.linked.input_iff node member name).mp input
  obtain ⟨edge, held, sink⟩ := PlanGraph.mem_sinksAt_iff.mp fed
  refine ⟨edge, held, ?_, sink⟩
  cases gating with
  | free => cases asked
  | missing => cases asked
  | outcome value fact =>
      rw [Reading.Gating.edge?, Option.some.injEq] at asked
      cases kind : edge.kind with
      | condition => rfl
      | action =>
          obtain ⟨_, -, -, -, named⟩ :=
            sound.completed.producer (PlanGraph.producers?_of_edge? held kind)
          exact absurd asked.symm (named.ne_outcomeEdge value fact)

theorem Reading.Gates.graph_eq {domain : Domain} {graph after : PlanGraph} {node final : Node}
    {gating : Gating} (gates : Gates domain graph node gating after final)
    (unasked : gating.edge? = none) : after = graph := by
  cases gates with
  | free => rfl
  | missing => rfl
  | outcome _ => cases unasked

theorem Reading.Gating.line_of_mem_warnings {gating : Gating} {line : Nat} {action : String}
    {warning : Warning} (member : warning ∈ gating.warnings line action) : warning.line = line := by
  cases gating with
  | free => cases member
  | missing =>
      rw [warnings, List.mem_singleton] at member
      rw [member]
  | outcome => cases member

/-- No two lines of a block have the same number, so the warnings with the number of a line are those
that it issues itself. -/
theorem Reading.warnings_of_line {domain : Domain} {before after : List TraceLine} {line : TraceLine}
    {start reading middle final : Reading} {own : List Warning}
    (ascending : (before ++ line :: after).Pairwise (·.number < ·.number))
    (first : before.foldlM (step domain) start = .ok reading) (calm : start.warnings = [])
    (issued : middle.warnings = reading.warnings ++ own)
    (ofLine : ∀ warning ∈ own, warning.line = line.number)
    (last : after.foldlM (step domain) middle = .ok final) :
    final.warnings.filter (·.line = line.number) = own := by
  rw [List.pairwise_append, List.pairwise_cons] at ascending
  obtain ⟨-, ⟨later, -⟩, earlier⟩ := ascending
  obtain ⟨older, start, ofBefore⟩ := warnings_foldlM first
  obtain ⟨newer, last, ofAfter⟩ := warnings_foldlM last
  have noneOlder : older.filter (·.line = line.number) = [] := by
    rw [List.filter_eq_nil_iff]
    intro warning member
    obtain ⟨other, among, same⟩ := ofBefore warning member
    have below := earlier other among line List.mem_cons_self
    simp only [decide_eq_true_eq]
    omega
  have noneNewer : newer.filter (·.line = line.number) = [] := by
    rw [List.filter_eq_nil_iff]
    intro warning member
    obtain ⟨other, among, same⟩ := ofAfter warning member
    have above := later other among
    simp only [decide_eq_true_eq]
    omega
  have allOwn : own.filter (·.line = line.number) = own := by
    rw [List.filter_eq_self]
    simpa using ofLine
  rw [last, issued, start, calm, List.nil_append, List.filter_append, List.filter_append, noneOlder,
    allOwn, noneNewer, List.nil_append, List.append_nil]

theorem Plan.gatedBy_of_ofTrace {domain : Domain} {trace : String} {freeId : Nat} {plan : Plan}
    {before after : List TraceLine} {line : TraceLine} {signature : Signature}
    (read : Plan.ofTrace domain trace freeId = .ok plan)
    (announced : planBlock? trace = some (before ++ line :: after))
    (action : line.token? = some (.action signature)) :
    ∃ reading middle parameters node,
      before.foldlM (Reading.step domain) { nextId := freeId } = .ok reading ∧
      reading.step domain line = .ok middle ∧
      Reading.parameters domain signature = .ok parameters ∧
      plan.graph.node? (freeId + (before.filterMap TraceLine.actionText?).length) = some node ∧
      node.name = signature.text ∧
      GatedBy (gatingAfter (history domain freeId before)) line.number
        (reading.resolution domain signature parameters) middle.graph plan node := by
  obtain ⟨final, run, rfl⟩ := Plan.foldlM_of_ofTrace read announced
  obtain ⟨reading, middle, parameters, graph, node, placed⟩ := Reading.placed_of_foldlM run action
  have acted := placed.acted
  have gating := ((Governed.start freeId).foldlM placed.first).gating
  change reading.gating = gatingAfter (history domain freeId before) at gating
  refine ⟨reading, middle, parameters, node, placed.first, placed.step, acted.declared, placed.stored,
    acted.name_eq, ?_⟩
  rw [← gating]
  have same := (Sound.reads placed.reads).node_eq_act acted
  constructor
  · exact same
  · intro name waits
    have input : name ∈ node.inputEdges := by
      rw [same, waits]
      exact Node.mem_inputEdges_addInput.mpr (Or.inl rfl)
    exact ⟨input,
      placed.sound.condition_of_gating (List.mem_of_find?_eq_some placed.stored) waits input⟩
  · intro unasked
    rw [acted.after_eq, acted.gates.graph_eq unasked]
  · have own : middle.warnings =
        reading.warnings ++ reading.gating.warnings line.number node.name := by
      rw [acted.after_eq, acted.name_eq, reading.missingObservations_eq]
    exact Reading.warnings_of_line (ascending_planBlock? announced) placed.first rfl own
      (fun _ => Reading.Gating.line_of_mem_warnings) placed.last

def detourStart : List TraceLine :=
  [⟨2, "0: observe-at r a"⟩, ⟨3, "1: ramificate"⟩, ⟨4, "2: move r b c"⟩, ⟨5, "3: pop"⟩]

def detourEnd : List TraceLine := [⟨7, "5: shed"⟩, ⟨8, "6: move r a b"⟩]

theorem detour_gatedBy : ∃ ungated graph plan node,
    planBlock? detourTrace = some (detourStart ++ ⟨6, "4: move r c b"⟩ :: detourEnd) ∧
    TraceLine.token? ⟨6, "4: move r c b"⟩ = some (.action ⟨"move", ["r", "c", "b"]⟩) ∧
    Plan.ofTrace .rooms detourTrace 0 = .ok plan ∧ plan.graph.node? 2 = some node ∧
    GatedBy (.outcome false "at r a") 6 ungated graph plan node := by
  have announced :
      planBlock? detourTrace = some (detourStart ++ ⟨6, "4: move r c b"⟩ :: detourEnd) := by
    decide +kernel
  have token : TraceLine.token? ⟨6, "4: move r c b"⟩ =
      some (.action ⟨"move", ["r", "c", "b"]⟩) := by decide +kernel
  have gating : gatingAfter (history .rooms 0 detourStart) = .outcome false "at r a" := by
    decide +kernel
  have count : (detourStart.filterMap TraceLine.actionText?).length = 2 := by decide +kernel
  obtain ⟨-, plan, -, -, read, -, -⟩ := exists_detour
  obtain ⟨reading, middle, parameters, node, -, -, -, stored, -, gated⟩ :=
    Plan.gatedBy_of_ofTrace read announced token
  rw [count] at stored
  rw [gating] at gated
  exact ⟨_, _, plan, node, announced, token, read, stored, gated⟩

end ContingentPlan
