import ContingentPlan.Proofs.Reading.Follow
import ContingentPlan.Session

/-!
Plans whose branches are merged again, nested to any depth. Each branch starts behind the observation,
the merging action joins the ends of both, and every other action follows the one before it; only the
last action of the plan feeds none.
-/

namespace ContingentPlan

/-- A `branch` is an action with two outcomes, a body for each of them, and the action that merges
them, before the rest of the body. -/
inductive Body
  | empty
  | action (signature : Signature) (rest : Body)
  | branch (observation : Signature) (whenTrue whenFalse : Body) (merge : Signature) (rest : Body)

namespace Body

def tokens : Body → List Token
  | empty => []
  | action signature rest => .action signature :: rest.tokens
  | branch observation whenTrue whenFalse merge rest =>
      .action observation :: .ramificate ::
        (whenTrue.tokens ++ .pop :: (whenFalse.tokens ++ .shed :: .action merge :: rest.tokens))

def size : Body → Nat
  | empty => 0
  | action _ rest => rest.size + 1
  | branch _ whenTrue whenFalse _ rest => whenTrue.size + whenFalse.size + rest.size + 2

def last? : Body → Nat → Option Nat → Option Nat
  | empty, _, before => before
  | action _ rest, id, _ => rest.last? (id + 1) (some id)
  | branch _ whenTrue whenFalse _ rest, id, _ =>
      let mergeId := id + 1 + whenTrue.size + whenFalse.size
      rest.last? (mergeId + 1) (some mergeId)

/-- The actions of a body have the numbers from `id` on and are fed as its shape says. -/
def Wired (graph : PlanGraph) : Body → Nat → Option Nat → Prop
  | empty, _, _ => True
  | action signature rest, id, before =>
      graph.Fed id signature before.toList ∧ rest.Wired graph (id + 1) (some id)
  | branch observation whenTrue whenFalse merge rest, id, before =>
      let trueId := id + 1
      let falseId := trueId + whenTrue.size
      let mergeId := falseId + whenFalse.size
      graph.Fed id observation before.toList ∧
      whenTrue.Wired graph trueId (some id) ∧
      whenFalse.Wired graph falseId (some id) ∧
      graph.Fed mergeId merge
        (joined (whenFalse.last? falseId (some id)) (whenTrue.last? trueId (some id))) ∧
      rest.Wired graph (mergeId + 1) (some mergeId)

theorem wired_of_grows {graph after : PlanGraph} (grows : Grows graph after) {body : Body}
    {id : Nat} {before : Option Nat} (wired : body.Wired graph id before) :
    body.Wired after id before := by
  induction body generalizing id before with
  | empty => trivial
  | action signature rest ih => exact ⟨grows.fed wired.1, ih wired.2⟩
  | branch observation whenTrue whenFalse merge rest ihTrue ihFalse ihRest =>
      obtain ⟨first, trueWired, falseWired, merged, restWired⟩ := wired
      exact ⟨grows.fed first, ihTrue trueWired, ihFalse falseWired, grows.fed merged,
        ihRest restWired⟩

theorem last?_some (body : Body) (id before : Nat) :
    ∃ last, body.last? id (some before) = some last := by
  induction body generalizing id before with
  | empty => exact ⟨before, rfl⟩
  | action signature rest ih => exact ih (id + 1) id
  | branch observation whenTrue whenFalse merge rest ihTrue ihFalse ihRest => exact ihRest _ _

end Body

structure Traversed (body : Body) (before : Option Nat) (reading after : Reading) : Prop
    extends Advances reading after where
  nextId : after.nextId = reading.nextId + body.size
  awaits : after.Awaits (body.last? reading.nextId before)
  below : after.continuations.tail = reading.continuations.tail
  wired : body.Wired after.graph reading.nextId before

theorem Traversed.ends {body : Body} {id : Nat} {reading after : Reading}
    (traversed : Traversed body (some id) reading after) :
    ∃ last edge, body.last? reading.nextId (some id) = some last ∧
      after.continuations = edge :: reading.continuations.tail ∧
      after.graph.completionEdge? last = some edge := by
  obtain ⟨last, lastEq⟩ := body.last?_some reading.nextId id
  have awaits := traversed.awaits
  rw [lastEq] at awaits
  obtain ⟨edge, below, stack, named⟩ := Reading.awaits_some.mp awaits
  have tail := traversed.below
  rw [stack, List.tail_cons] at tail
  exact ⟨last, edge, lastEq, by rw [stack, tail], named⟩

structure Merges (signature : Signature) (first second : Nat) (reading merged : Reading) : Prop
    extends Advances reading merged where
  nextId : merged.nextId = reading.nextId + 1
  fed : merged.graph.Fed reading.nextId signature (joined (some first) (some second))
  awaits : merged.Awaits (some reading.nextId)
  below : merged.continuations.tail = reading.continuations.tail.tail

theorem Reading.Follows.merge {domain : Domain} {signature : Signature} {tokens : List Token}
    {reading after : Reading} (sound : Sound reading) {first second : Nat} {top next : String}
    {below : List String} (stack : reading.continuations = top :: next :: below)
    (ofFirst : reading.graph.completionEdge? first = some top)
    (ofSecond : reading.graph.completionEdge? second = some next)
    (run : Follows domain (.shed :: .action signature :: tokens) reading after) :
    ∃ merged, Merges signature first second reading merged ∧ Follows domain tokens merged after := by
  have shed : Sound reading.shed := sound.steer rfl rfl fun _ => Iff.rfl
  obtain ⟨line, parameters, merged, graph, node, acted, run⟩ := run.shed.action
  have advances := Advances.act shed acted
  refine ⟨merged, ⟨⟨advances.sound, advances.grows, advances.merging, advances.calm⟩,
    ?_, ?_, ?_, ?_⟩, run⟩
  · rw [acted.after_eq]
    rfl
  · exact shed.fed_merge acted rfl stack ofFirst ofSecond
  · exact shed.awaits_act acted
  · rw [acted.after_eq, stack]
    change reading.continuations.drop 2 = below
    rw [stack]
    rfl

namespace Traversed

variable {domain : Domain} {reading middle after : Reading} {before : Option Nat}

theorem empty (sound : Sound reading) (merging : reading.merging = false)
    (awaits : reading.Awaits before) : Traversed .empty before reading reading where
  toAdvances := .refl sound merging
  nextId := rfl
  awaits := awaits
  below := rfl
  wired := trivial

theorem action {line : Nat} {signature : Signature} {parameters : List Binding}
    {graph : PlanGraph} {node : Node} {rest : Body} (sound : Sound reading)
    (merging : reading.merging = false) (awaits : reading.Awaits before)
    (acted : Reading.Acted domain line signature reading middle parameters graph node)
    (later : Traversed rest (some reading.nextId) middle after) :
    Traversed (.action signature rest) before reading after := by
  have nextId := acted.nextId_after
  have fed := later.grows.fed (sound.fed_act acted merging awaits)
  have count := later.nextId
  have ends := later.awaits
  have wired := later.wired
  rw [nextId] at count ends wired
  refine ⟨(Advances.act sound acted).trans later.toAdvances, ?_, ends, ?_, ⟨fed, wired⟩⟩
  · rw [count, Body.size]
    omega
  · rw [later.below, acted.tail_after merging]

/-- The pop brings the copy of the observation's edge up again, above the end of the true body, so
that both bodies start with this edge and the merging action finds the ends of both. -/
theorem branch {observation merge : Signature} {whenTrue whenFalse rest : Body}
    {branched trueEnd popped falseEnd merged : Reading} {trueLast falseLast : Nat}
    (forked : Forked observation before reading branched)
    (trueBody : Traversed whenTrue (some reading.nextId) branched trueEnd)
    (turned : Advances trueEnd popped) (poppedId : popped.nextId = trueEnd.nextId)
    (falseBody : Traversed whenFalse (some reading.nextId) popped falseEnd)
    (trueLastEq : whenTrue.last? branched.nextId (some reading.nextId) = some trueLast)
    (falseLastEq : whenFalse.last? popped.nextId (some reading.nextId) = some falseLast)
    (merges : Merges merge falseLast trueLast falseEnd merged)
    (below : falseEnd.continuations.tail.tail = reading.continuations.tail)
    (later : Traversed rest (some falseEnd.nextId) merged after) :
    Traversed (.branch observation whenTrue whenFalse merge rest) before reading after := by
  have branchedId := forked.nextId
  have falseId : popped.nextId = reading.nextId + 1 + whenTrue.size := by
    rw [poppedId, trueBody.nextId, branchedId]
  have mergeId : falseEnd.nextId = reading.nextId + 1 + whenTrue.size + whenFalse.size := by
    rw [falseBody.nextId, falseId]
  have restId := merges.nextId
  rw [mergeId] at restId
  have toEnd := merges.grows.trans later.grows
  have toMerge := turned.grows.trans (falseBody.grows.trans toEnd)
  have trueWired := trueBody.wired
  have falseWired := falseBody.wired
  have mergeFed := merges.fed
  have restWired := later.wired
  have ends := later.awaits
  rw [branchedId] at trueWired trueLastEq
  rw [falseId] at falseWired falseLastEq
  rw [mergeId] at mergeFed restWired ends
  rw [restId] at restWired ends
  rw [← falseLastEq, ← trueLastEq] at mergeFed
  have advances := (forked.toAdvances.trans (trueBody.toAdvances.trans turned)).trans
    (falseBody.toAdvances.trans (merges.toAdvances.trans later.toAdvances))
  refine ⟨advances, ?_, ends, ?_, ?_⟩
  · rw [later.nextId, restId, Body.size]
    omega
  · rw [later.below, merges.below, below]
  · exact ⟨(trueBody.grows.trans toMerge).fed forked.fed,
      Body.wired_of_grows toMerge trueWired,
      Body.wired_of_grows toEnd falseWired,
      later.grows.fed mergeFed, restWired⟩

end Traversed

theorem traversed (body : Body) {domain : Domain} {reading after : Reading} {before : Option Nat}
    (sound : Sound reading) (merging : reading.merging = false) (awaits : reading.Awaits before)
    (run : Reading.Follows domain body.tokens reading after) :
    Traversed body before reading after := by
  induction body generalizing reading after before with
  | empty =>
      cases run
      exact .empty sound merging awaits
  | action signature rest ih =>
      obtain ⟨line, parameters, middle, graph, node, acted, run⟩ := run.action
      have first := Advances.act sound acted
      have later := ih first.sound first.merging (sound.awaits_act acted) run
      exact .action sound merging awaits acted later
  | branch observation whenTrue whenFalse merge rest ihTrue ihFalse ihRest =>
      obtain ⟨branched, forked, run⟩ := run.fork sound merging awaits
      obtain ⟨origin, named, branchedStack⟩ := forked.stack
      obtain ⟨trueEnd, trueRun, run⟩ := run.split
      have trueBody := ihTrue forked.sound forked.merging
        (Reading.awaits_some.mpr ⟨origin, _, branchedStack, named⟩) trueRun
      obtain ⟨trueLast, trueEdge, trueLastEq, trueStack, trueNamed⟩ := trueBody.ends
      rw [branchedStack, List.tail_cons] at trueStack
      obtain ⟨line, token, run⟩ := run.pop
      obtain ⟨turned, poppedEq⟩ :=
        Advances.pop trueBody.sound trueBody.merging trueStack line token
      generalize trueEnd.pop line token = popped at turned poppedEq run
      have poppedId : popped.nextId = trueEnd.nextId := by rw [poppedEq]
      have poppedStack : popped.continuations =
          origin :: trueEdge :: reading.continuations.tail := by rw [poppedEq]
      obtain ⟨falseEnd, falseRun, run⟩ := run.split
      have falseBody := ihFalse turned.sound turned.merging
        (Reading.awaits_some.mpr ⟨origin, _, poppedStack,
          (trueBody.grows.trans turned.grows).completionEdge? named⟩) falseRun
      obtain ⟨falseLast, falseEdge, falseLastEq, falseStack, falseNamed⟩ := falseBody.ends
      rw [poppedStack, List.tail_cons] at falseStack
      obtain ⟨merged, merges, run⟩ := run.merge falseBody.sound falseStack falseNamed
        ((turned.grows.trans falseBody.grows).completionEdge? trueNamed)
      have later := ihRest merges.sound merges.merging merges.awaits run
      exact .branch forked trueBody turned poppedId falseBody trueLastEq falseLastEq merges
        (by rw [falseStack]; rfl) later

theorem Body.last?_eq (body : Body) (id : Nat) (before : Option Nat) :
    body.last? id before = if body.size = 0 then before else some (id + body.size - 1) := by
  induction body generalizing id before with
  | empty => rfl
  | action signature rest ih =>
      rw [last?, ih, size]
      split
      · rename_i none
        simp [none]
      · simp only [Nat.add_eq_zero_iff, Nat.one_ne_zero, and_false, if_false, Option.some.injEq]
        omega
  | branch observation whenTrue whenFalse merge rest ihTrue ihFalse ihRest =>
      simp only [last?, size]
      rw [ihRest]
      split
      · rename_i none
        simp only [none, Nat.add_eq_zero_iff, Nat.reduceEqDiff, and_false, if_false,
          Option.some.injEq]
        omega
      · simp only [Nat.add_eq_zero_iff, Nat.reduceEqDiff, and_false, if_false, Option.some.injEq]
        omega

structure BranchesMerged (body : Body) (freeId : Nat) (plan : Plan) : Prop where
  calm : ∀ warning ∈ plan.report.warnings, ∀ token,
    warning.anomaly ≠ .shallowStack token ∧ warning.anomaly ≠ .emptyStack token
  wired : body.Wired plan.graph freeId none
  lastUnfed : ∀ id, body.last? freeId none = some id →
    ∃ name edge, plan.graph.completionEdge? id = some name ∧ plan.graph.edge? name = some edge ∧
      edge.kind = .action ∧ edge.sinks = []
  onlyLast : ∀ name edge, plan.graph.edge? name = some edge → edge.kind = .action →
    edge.sinks = [] → ∃ id, body.last? freeId none = some id ∧
      plan.graph.completionEdge? id = some name

theorem Plan.branchesMerged_of_ofTrace {domain : Domain} {trace : String} {freeId : Nat}
    {plan : Plan} {block : List TraceLine} {body : Body} (announced : planBlock? trace = some block)
    (generated : block.map TraceLine.token? = body.tokens.map some)
    (read : Plan.ofTrace domain trace freeId = .ok plan) : BranchesMerged body freeId plan := by
  rcases Plan.reads_of_ofTrace read with ⟨absent, -⟩ | ⟨other, reading, found, run, rfl⟩
  · rw [announced] at absent
    cases absent
  rw [announced, Option.some.injEq] at found
  subst found
  have start : Sound { nextId := freeId } := Sound.start freeId
  have traversal : Traversed body none { nextId := freeId } reading :=
    traversed body start rfl rfl (Reading.follows_of_foldlM generated run)
  have awaits := traversal.awaits
  constructor
  · intro warning member token
    rcases traversal.calm warning member with older | ⟨action, missing⟩
    · cases older
    · simp [missing]
  · exact traversal.wired
  · intro id last
    rw [last] at awaits
    obtain ⟨name, below, -, named⟩ := Reading.awaits_some.mp awaits
    have count : reading.nextId = freeId + body.size := traversal.nextId
    have newest : reading.nextId = id + 1 := by
      rw [Body.last?_eq] at last
      split at last
      · cases last
      · simp only [Option.some.injEq] at last
        omega
    obtain ⟨edge, held, kind, unfed⟩ := traversal.sound.newest_unfed named newest
    exact ⟨name, edge, named, held, kind, unfed⟩
  · intro name edge held kind unfed
    have producers := PlanGraph.producers?_of_edge? held kind
    rw [← PlanGraph.sinksAt_of_edge? held] at unfed
    have waits := traversal.sound.waiting name edge.sources producers unfed
    have tail : reading.continuations.tail = [] := traversal.below
    cases stack : reading.continuations with
    | nil => simp [stack] at waits
    | cons top below =>
        rw [stack, List.tail_cons] at tail
        rw [stack, tail, List.mem_singleton] at waits
        subst waits
        cases last : body.last? freeId none with
        | none => simp [last, Reading.Awaits, stack] at awaits
        | some id =>
            rw [last] at awaits
            obtain ⟨single, rest, same, named⟩ := Reading.awaits_some.mp awaits
            rw [stack, List.cons.injEq] at same
            exact ⟨id, rfl, by rw [same.1]; exact named⟩

def Body.detour : Body :=
  .branch ⟨"observe-at", ["r", "a"]⟩ (.action ⟨"move", ["r", "b", "c"]⟩ .empty)
    (.action ⟨"move", ["r", "c", "b"]⟩ .empty) ⟨"move", ["r", "a", "b"]⟩ .empty

theorem detour_branchesMerged : ∃ block plan, planBlock? detourTrace = some block ∧
    block.map TraceLine.token? = Body.detour.tokens.map some ∧
    Plan.ofTrace .rooms detourTrace 0 = .ok plan ∧ BranchesMerged Body.detour 0 plan := by
  obtain ⟨block, plan, announced, generated, read, -, -⟩ := exists_detour
  exact ⟨block, plan, announced, generated, read,
    Plan.branchesMerged_of_ofTrace announced generated read⟩

end ContingentPlan
