import ContingentPlan.Proofs.Reading.Growth

/-!
Runs over the tokens of a block, whatever lines they stand in, and what the next action of such a run
is fed by.
-/

namespace ContingentPlan

namespace Reading

inductive Follows (domain : Domain) : List Token → Reading → Reading → Prop
  | done {reading : Reading} : Follows domain [] reading reading
  | next {line : TraceLine} {token : Token} {tokens : List Token}
      {reading middle after : Reading} : line.token? = some token →
      Stepped domain line reading middle → Follows domain tokens middle after →
      Follows domain (token :: tokens) reading after

theorem follows_of_foldlM {domain : Domain} {lines : List TraceLine} {tokens : List Token}
    {reading after : Reading} (read : lines.map TraceLine.token? = tokens.map some)
    (run : lines.foldlM (step domain) reading = .ok after) : Follows domain tokens reading after := by
  induction lines generalizing tokens reading with
  | nil =>
      cases tokens with
      | nil =>
          cases run
          exact .done
      | cons token tokens => cases read
  | cons line lines ih =>
      cases tokens with
      | nil => cases read
      | cons token tokens =>
          rw [List.map_cons, List.map_cons, List.cons.injEq] at read
          rw [List.foldlM_cons, except_bind_eq_ok] at run
          obtain ⟨middle, step, rest⟩ := run
          exact .next read.1 (stepped_of_step step) (ih read.2 rest)

namespace Follows

variable {domain : Domain} {tokens : List Token} {reading after : Reading}

theorem split {later : List Token} (run : Follows domain (tokens ++ later) reading after) :
    ∃ middle, Follows domain tokens reading middle ∧ Follows domain later middle after := by
  induction tokens generalizing reading with
  | nil => exact ⟨reading, .done, run⟩
  | cons token tokens ih =>
      cases run with
      | next read stepped rest =>
          obtain ⟨middle, first, second⟩ := ih rest
          exact ⟨middle, .next read stepped first, second⟩

/-! What the first token of a run does. -/

theorem ramificate (run : Follows domain (.ramificate :: tokens) reading after) :
    ∃ line, Follows domain tokens (reading.ramificate line) after := by
  cases run with
  | next read stepped rest =>
      cases stepped with
      | ramificate => exact ⟨_, rest⟩
      | _ => simp_all

theorem shed (run : Follows domain (.shed :: tokens) reading after) :
    Follows domain tokens reading.shed after := by
  cases run with
  | next read stepped rest =>
      cases stepped with
      | shed => exact rest
      | _ => simp_all

theorem pop (run : Follows domain (.pop :: tokens) reading after) :
    ∃ line token, Follows domain tokens (reading.pop line token) after := by
  cases run with
  | next read stepped rest =>
      cases stepped with
      | pop => exact ⟨_, _, rest⟩
      | _ => simp_all

theorem action {signature : Signature}
    (run : Follows domain (.action signature :: tokens) reading after) :
    ∃ line parameters middle graph node,
      Acted domain line signature reading middle parameters graph node ∧
      Follows domain tokens middle after := by
  cases run with
  | next read stepped rest =>
      cases stepped with
      | action own acted =>
          rw [read, Option.some.injEq, Token.action.injEq] at own
          subst own
          exact ⟨_, _, _, _, _, acted, rest⟩
      | _ => simp_all

end Follows

theorem inputEdges_freshNode (id : Nat) (signature : Signature) (parameters : List Binding) :
    (freshNode id signature parameters).inputEdges = [] := rfl

/-- The top continuation is the completion edge of the given action; there is none without one. -/
def Awaits (reading : Reading) (before : Option Nat) : Prop :=
  reading.continuations.head?.map some = before.map reading.graph.completionEdge?

theorem awaits_some {reading : Reading} {id : Nat} :
    reading.Awaits (some id) ↔ ∃ edge below, reading.continuations = edge :: below ∧
      reading.graph.completionEdge? id = some edge := by
  unfold Awaits
  cases stack : reading.continuations with
  | nil => simp
  | cons top below =>
      simp only [List.head?_cons, Option.map_some, Option.some.injEq, List.cons.injEq]
      constructor
      · intro named
        exact ⟨top, below, ⟨rfl, rfl⟩, named.symm⟩
      · rintro ⟨edge, rest, ⟨rfl, rfl⟩, named⟩
        exact named.symm

end Reading

def joined (first second : Option Nat) : List Nat :=
  if first = second then first.toList else first.toList ++ second.toList

namespace Sound

variable {reading after : Reading} {domain : Domain} {line : Nat} {signature : Signature}
  {parameters : List Binding} {graph : PlanGraph} {node : Node}

theorem fed_act (sound : Sound reading)
    (acted : Reading.Acted domain line signature reading after parameters graph node)
    (merging : reading.merging = false) {before : Option Nat} (awaits : reading.Awaits before) :
    after.graph.Fed reading.nextId signature before.toList := by
  have grows := sound.grows_act acted
  refine ⟨node, sound.node?_act acted, acted.name_eq, ?_⟩
  rw [sound.actionInputs_act acted, Reading.parents, Reading.demand, merging, PlanGraph.Completes]
  cases before with
  | none =>
      have empty : reading.continuations = [] := by simpa [Reading.Awaits] using awaits
      simp [empty, Reading.inputEdges_freshNode]
  | some id =>
      obtain ⟨edge, below, stack, named⟩ := Reading.awaits_some.mp awaits
      have later := grows.completionEdge? named
      simp [stack, later, Node.inputEdges_addInput, Reading.inputEdges_freshNode]

theorem fed_merge (sound : Sound reading)
    (acted : Reading.Acted domain line signature reading after parameters graph node)
    (merging : reading.merging = true) {first second : Nat} {top below : String}
    {rest : List String} (stack : reading.continuations = top :: below :: rest)
    (ofFirst : reading.graph.completionEdge? first = some top)
    (ofSecond : reading.graph.completionEdge? second = some below) :
    after.graph.Fed reading.nextId signature (joined (some first) (some second)) := by
  have grows := sound.grows_act acted
  have firstLater := grows.completionEdge? ofFirst
  have secondLater := grows.completionEdge? ofSecond
  refine ⟨node, sound.node?_act acted, acted.name_eq, ?_⟩
  rw [sound.actionInputs_act acted, Reading.parents, Reading.demand, merging, stack,
    PlanGraph.Completes]
  by_cases same : first = second
  · subst same
    have names : below = top := by
      rw [ofFirst, Option.some.injEq] at ofSecond
      exact ofSecond.symm
    simp [joined, firstLater, names, Node.inputEdges_addInput, Reading.inputEdges_freshNode]
  · have names : below ≠ top := by
      intro equal
      subst equal
      exact same (sound.completionEdge?_injective ofFirst ofSecond)
    simp [joined, same, firstLater, secondLater, names, Node.inputEdges_addInput,
      Reading.inputEdges_freshNode]

theorem awaits_act (sound : Sound reading)
    (acted : Reading.Acted domain line signature reading after parameters graph node) :
    after.Awaits (some reading.nextId) := by
  rw [Reading.awaits_some]
  refine ⟨reading.completion, reading.continuations.drop reading.demand, ?_,
    sound.completionEdge?_act acted⟩
  rw [acted.after_eq]

end Sound

def Calm (reading after : Reading) : Prop :=
  ∀ warning ∈ after.warnings, warning ∈ reading.warnings ∨
    ∃ action, warning.anomaly = .missingObservation action

namespace Calm

variable {reading middle after : Reading}

theorem of_eq (same : after.warnings = reading.warnings) : Calm reading after := by
  intro warning member
  rw [same] at member
  exact Or.inl member

theorem trans (first : Calm reading middle) (second : Calm middle after) : Calm reading after := by
  intro warning member
  rcases second warning member with older | missing
  · exact first warning older
  · exact Or.inr missing

theorem act {domain : Domain} {line : Nat} {signature : Signature} {parameters : List Binding}
    {graph : PlanGraph} {node : Node}
    (acted : Reading.Acted domain line signature reading after parameters graph node) :
    Calm reading after := by
  intro warning member
  rw [acted.after_eq] at member
  rcases List.mem_append.mp member with older | missing
  · exact Or.inl older
  · right
    unfold Reading.missingObservations at missing
    split at missing
    · rw [List.mem_singleton] at missing
      exact ⟨signature.text, by rw [missing]⟩
    · cases missing

end Calm

/-- What every stretch of a block keeps that begins and ends between two actions. -/
structure Advances (reading after : Reading) : Prop where
  sound : Sound after
  grows : Grows reading.graph after.graph
  merging : after.merging = false
  calm : Calm reading after

namespace Advances

variable {reading middle after : Reading}

theorem refl (sound : Sound reading) (merging : reading.merging = false) :
    Advances reading reading where
  sound := sound
  grows := .refl
  merging := merging
  calm := .of_eq rfl

theorem trans (first : Advances reading middle) (second : Advances middle after) :
    Advances reading after where
  sound := second.sound
  grows := first.grows.trans second.grows
  merging := second.merging
  calm := first.calm.trans second.calm

theorem act {domain : Domain} {line : Nat} {signature : Signature} {parameters : List Binding}
    {graph : PlanGraph} {node : Node} (sound : Sound reading)
    (acted : Reading.Acted domain line signature reading after parameters graph node) :
    Advances reading after where
  sound := sound.act acted
  grows := sound.grows_act acted
  merging := by rw [acted.after_eq]
  calm := .act acted

theorem ramificate (sound : Sound reading) (merging : reading.merging = false)
    (branching : reading.branching = true) {top : String} {below : List String}
    (stack : reading.continuations = top :: below) (line : Nat) :
    Advances reading (reading.ramificate line) ∧
      reading.ramificate line = { reading with continuations := top :: top :: below } := by
  have same : reading.ramificate line = { reading with continuations := top :: top :: below } := by
    simp [Reading.ramificate, branching, stack]
  refine ⟨⟨?_, ?_, ?_, ?_⟩, same⟩
  · exact sound.steer (reading.graph_ramificate line) (reading.nextId_ramificate line)
      fun _ => reading.mem_continuations_ramificate line
  · rw [reading.graph_ramificate]
    exact .refl
  · rw [same]
    exact merging
  · exact .of_eq (by rw [same])

theorem pop (sound : Sound reading) (merging : reading.merging = false) {top next : String}
    {below : List String} (stack : reading.continuations = top :: next :: below) (line : Nat)
    (token : String) :
    Advances reading (reading.pop line token) ∧
      reading.pop line token =
        { reading with
          continuations := next :: top :: below, branching := false, gated := true
          outcome := false } := by
  have same : reading.pop line token =
      { reading with
        continuations := next :: top :: below, branching := false, gated := true
        outcome := false } := by
    simp [Reading.pop, stack]
  refine ⟨⟨?_, ?_, ?_, ?_⟩, same⟩
  · exact sound.steer (reading.graph_pop line token) (reading.nextId_pop line token)
      fun _ => reading.mem_continuations_pop line token
  · rw [reading.graph_pop]
    exact .refl
  · rw [same]
    exact merging
  · exact .of_eq (by rw [same])

end Advances

structure Forked (signature : Signature) (before : Option Nat) (reading branched : Reading) : Prop
    extends Advances reading branched where
  nextId : branched.nextId = reading.nextId + 1
  fed : branched.graph.Fed reading.nextId signature before.toList
  gate : reading.gated = true → ∀ fact older, reading.observations = fact :: older →
    branched.graph.Gated reading.nextId reading.outcome fact
  stack : ∃ origin, branched.graph.completionEdge? reading.nextId = some origin ∧
    branched.continuations = origin :: origin :: reading.continuations.tail
  observations : branched.observations = signature.observedFact?.toList ++ reading.observations
  gated : branched.gated = signature.observedFact?.isSome
  outcome : branched.outcome = (signature.observedFact?.isSome || reading.outcome)
  warnings : ∃ line,
    branched.warnings = reading.warnings ++ reading.missingObservations line signature.text

theorem Reading.Follows.fork {domain : Domain} {signature : Signature} {tokens : List Token}
    {before : Option Nat} {reading after : Reading} (sound : Sound reading)
    (merging : reading.merging = false) (awaits : reading.Awaits before)
    (run : Follows domain (.action signature :: .ramificate :: tokens) reading after) :
    ∃ branched, Forked signature before reading branched ∧ Follows domain tokens branched after := by
  obtain ⟨actionLine, parameters, observed, graph, node, acted, run⟩ := run.action
  have first := Advances.act sound acted
  have tail := acted.tail_after merging
  obtain ⟨origin, below, stack, named⟩ := awaits_some.mp (sound.awaits_act acted)
  rw [stack, List.tail_cons] at tail
  have branching : observed.branching = true := by rw [acted.after_eq]
  obtain ⟨line, run⟩ := run.ramificate
  obtain ⟨second, branched⟩ := Advances.ramificate first.sound first.merging branching stack line
  refine ⟨observed.ramificate line, ⟨first.trans second, ?_, ?_, ?_, ?_, ?_, ?_, ?_, ?_⟩, run⟩
  · rw [branched, acted.after_eq]
  · exact second.grows.fed (sound.fed_act acted merging awaits)
  · intro gated fact older same
    exact second.grows.gated (sound.gated_act acted gated same)
  · exact ⟨origin, second.grows.completionEdge? named, by rw [branched, ← tail]⟩
  · rw [branched, acted.after_eq]
  · rw [branched, acted.after_eq]
  · rw [branched, acted.after_eq]
  · exact ⟨actionLine, by rw [branched, acted.after_eq]⟩

end ContingentPlan
