import ContingentPlan.Proofs.Plan.Passage
import Mathlib.Data.List.Nodup

/-!
The account of the continuations. The completion edge of an action is put on the stack once; a branch
point puts a copy on it, and the parents of an action are taken off it. So the live continuations and
those that were taken are together the completion edges and the copies.
-/

namespace ContingentPlan

open scoped List

structure Taking where
  edge : String
  node : Nat
deriving DecidableEq, Repr

structure Account where
  taken : List Taking := []
  copied : List String := []
deriving DecidableEq, Repr

def Account.takenEdges (account : Account) : List String := account.taken.map Taking.edge

namespace Reading

def takes (reading : Reading) (line : TraceLine) : List Taking :=
  match line.token? with
  | some (.action _) => reading.parents.map ({ edge := ·, node := reading.nextId })
  | _ => []

def copies (reading : Reading) (line : TraceLine) : List String :=
  match line.token? with
  | some .ramificate => if reading.branching then reading.continuations.take 1 else []
  | _ => []

def enter (reading : Reading) (line : TraceLine) (past : Account) : Account where
  taken := past.taken ++ reading.takes line
  copied := past.copied ++ reading.copies line

def account (domain : Domain) (reading : Reading) (past : Account) : List TraceLine → Account
  | [] => past
  | line :: lines =>
      match reading.step domain line with
      | .ok next => next.account domain (reading.enter line past) lines
      | .error _ => past

/-- All that a line does to the stack of continuations. -/
structure Moves (line : TraceLine) (reading after : Reading) : Prop where
  action : ∀ signature, line.token? = some (.action signature) →
    ∃ node below, after.graph.nodes = reading.graph.nodes ++ [node] ∧
      (∀ taking ∈ reading.takes line, taking.node = node.id) ∧
      reading.continuations = (reading.takes line).map Taking.edge ++ below ∧
      after.continuations = node.output ++ below
  pop : line.token? = some .pop → after.continuations ~ reading.continuations
  other : (∀ signature, line.token? ≠ some (.action signature)) → line.token? ≠ some .pop →
    after.continuations = reading.copies line ++ reading.continuations

theorem continuations_ramificate (reading : Reading) (line : Nat) :
    (reading.ramificate line).continuations =
      (if reading.branching then reading.continuations.take 1 else []) ++ reading.continuations := by
  unfold ramificate
  split
  · split
    · rename_i empty
      simp [warn, empty]
    · rename_i top rest stack
      simp [stack]
  · rfl

theorem perm_continuations_pop (reading : Reading) (line : Nat) (token : String) :
    (reading.pop line token).continuations ~ reading.continuations := by
  unfold pop
  split
  · rename_i top below rest stack
    rw [stack]
    exact .swap top below rest
  · rfl

variable {domain : Domain} {line : TraceLine} {reading after : Reading}

theorem takes_of_action {signature : Signature} (token : line.token? = some (.action signature)) :
    reading.takes line = reading.parents.map ({ edge := ·, node := reading.nextId }) := by
  rw [takes, token]

theorem map_edge_takes {signature : Signature} (token : line.token? = some (.action signature)) :
    (reading.takes line).map Taking.edge = reading.parents := by
  rw [takes_of_action token, List.map_map]
  exact List.map_id _

theorem takes_of_silent (silent : ∀ signature, line.token? ≠ some (.action signature)) :
    reading.takes line = [] := by
  unfold takes
  split
  · rename_i signature token
    exact absurd token (silent signature)
  · rfl

theorem moves_of_acted {signature : Signature} (token : line.token? = some (.action signature))
    {parameters : List Binding} {graph : PlanGraph} {node : Node}
    (acted : Acted domain line.number signature reading after parameters graph node) :
    Moves line reading after where
  action := by
    intro _ _
    refine ⟨node, reading.continuations.drop reading.demand, acted.nodes_after, ?_, ?_, ?_⟩
    · intro taking member
      rw [takes_of_action token] at member
      obtain ⟨edge, -, rfl⟩ := List.mem_map.mp member
      exact acted.id_eq.symm
    · rw [map_edge_takes token, parents, List.take_append_drop]
    · rw [acted.output_eq, acted.after_eq]
      rfl
  pop := by simp [token]
  other := fun silent => absurd token (silent signature)

theorem Stepped.moves (stepped : Stepped domain line reading after) : Moves line reading after := by
  cases stepped with
  | malformed token => exact ⟨by simp [token], by simp [token], by simp [copies, token, warn]⟩
  | ramificate token =>
      refine ⟨by simp [token], by simp [token], fun _ _ => ?_⟩
      rw [reading.continuations_ramificate, copies, token]
  | shed token => exact ⟨by simp [token], by simp [token], by simp [copies, token, Reading.shed]⟩
  | pop token =>
      exact ⟨by simp [token], fun _ => reading.perm_continuations_pop line.number _, by simp [token]⟩
  | assume token => exact ⟨by simp [token], by simp [token], by simp [copies, token]⟩
  | action token acted => exact moves_of_acted token acted

end Reading

def PlanGraph.outputs (graph : PlanGraph) : List String := graph.nodes.flatMap Node.output

/-- The books balance, and the edges that an account says are taken feed the nodes it says. -/
structure Balanced (account : Account) (reading : Reading) : Prop where
  balance : reading.continuations ++ account.takenEdges ~ account.copied ++ reading.graph.outputs
  taken_iff : ∀ name id, { edge := name, node := id } ∈ account.taken ↔
    (reading.graph.producers? name).isSome ∧ id ∈ reading.graph.sinksAt name

namespace Sound

variable {reading : Reading}

theorem producers?_completion (sound : Sound reading) :
    reading.graph.producers? reading.completion = none := by
  rw [← reading.producers?_connected, PlanGraph.producers?, sound.free]

theorem mem_sinksAt_connected (sound : Sound reading) {name : String} {id : Nat} :
    id ∈ reading.connected.sinksAt name ↔
      id ∈ reading.graph.sinksAt name ∨ id = reading.nextId ∧ name ∈ reading.parents :=
  mem_sinksAt_foldl_connect fun _ parent => (sound.liveParents parent).imp fun _ facts => facts.1

theorem isSome_producers?_of_parent (sound : Sound reading) {name : String}
    (parent : name ∈ reading.parents) : (reading.graph.producers? name).isSome = true := by
  obtain ⟨sources, action, -⟩ := sound.liveParents parent
  rw [action]
  rfl

theorem sinksAt_act (sound : Sound reading) {after : Reading} {domain : Domain} {line : Nat}
    {signature : Signature} {parameters : List Binding} {graph : PlanGraph} {node : Node}
    (acted : Reading.Acted domain line signature reading after parameters graph node) {name : String}
    (action : (reading.outfitted.producers? name).isSome = true) :
    after.graph.sinksAt name = reading.connected.sinksAt name := by
  obtain ⟨sources, produced⟩ := Option.isSome_iff_exists.mp action
  rw [acted.after_eq, ← PlanGraph.sinksAt_addActionEdge sound.free]
  exact acted.requires.sinksAt_of_producers? produced

theorem nodup_outputs (sound : Sound reading) (ids : (reading.graph.nodes.map Node.id).Nodup) :
    reading.graph.outputs.Nodup := by
  rw [PlanGraph.outputs, List.nodup_flatMap]
  constructor
  · intro node member
    obtain ⟨name, output, -⟩ := sound.completed.output node member
    rw [output]
    exact List.nodup_singleton name
  · rw [List.Nodup, List.pairwise_map] at ids
    apply ids.imp_of_mem
    intro first second firstMember secondMember different name ofFirst ofSecond
    obtain ⟨_, firstOutput, -, firstNamed⟩ := sound.completed.output first firstMember
    obtain ⟨_, secondOutput, -, secondNamed⟩ := sound.completed.output second secondMember
    rw [firstOutput, List.mem_singleton] at ofFirst
    rw [secondOutput, List.mem_singleton] at ofSecond
    subst ofFirst ofSecond
    exact different (firstNamed.id_eq secondNamed)

theorem count_outputs (sound : Sound reading) (ids : (reading.graph.nodes.map Node.id).Nodup)
    {name : String} {edge : Edge} (held : reading.graph.edge? name = some edge)
    (kind : edge.kind = .action) : reading.graph.outputs.count name = 1 := by
  obtain ⟨node, member, output, -⟩ :=
    sound.completed.producer (PlanGraph.producers?_of_edge? held kind)
  apply List.count_eq_one_of_mem (sound.nodup_outputs ids)
  exact List.mem_flatMap.mpr ⟨node, member, by simp [output]⟩

end Sound

namespace Balanced

variable {account : Account} {domain : Domain} {line : TraceLine} {reading after : Reading}

theorem start (freeId : Nat) : Balanced {} { nextId := freeId } where
  balance := .refl _
  taken_iff := by
    intro name id
    simp [show ({ nextId := freeId } : Reading).graph.producers? name = none from rfl]

theorem steer (balanced : Balanced account reading) (steered : Reading.Steered line reading after)
    (stack : after.continuations ~ reading.copies line ++ reading.continuations) :
    Balanced (reading.enter line account) after where
  balance := by
    rw [Reading.enter, Reading.takes_of_silent steered.silent, steered.graph, List.append_nil]
    calc after.continuations ++ account.takenEdges
        _ ~ reading.copies line ++ reading.continuations ++ account.takenEdges := stack.append_right _
        _ = reading.copies line ++ (reading.continuations ++ account.takenEdges) := by simp
        _ ~ reading.copies line ++ (account.copied ++ reading.graph.outputs) :=
          balanced.balance.append_left _
        _ = reading.copies line ++ account.copied ++ reading.graph.outputs := by simp
        _ ~ account.copied ++ reading.copies line ++ reading.graph.outputs :=
          List.perm_append_comm.append_right _
  taken_iff := by
    rw [Reading.enter, Reading.takes_of_silent steered.silent, steered.graph, List.append_nil]
    exact balanced.taken_iff

theorem balance_act (balanced : Balanced account reading) {number : Nat} {signature : Signature}
    {parameters : List Binding} {graph : PlanGraph} {node : Node}
    (acted : Reading.Acted domain number signature reading after parameters graph node) :
    after.continuations ++ (account.takenEdges ++ reading.parents) ~
      account.copied ++ after.graph.outputs := by
  have outputs : after.graph.outputs = reading.graph.outputs ++ [reading.completion] := by
    rw [PlanGraph.outputs, acted.nodes_after, List.flatMap_append, List.flatMap_singleton,
      acted.output_eq]
    rfl
  have stack : after.continuations =
      reading.completion :: reading.continuations.drop reading.demand := by rw [acted.after_eq]
  rw [outputs, stack]
  calc reading.completion :: reading.continuations.drop reading.demand ++
        (account.takenEdges ++ reading.parents)
      _ = [reading.completion] ++ (reading.continuations.drop reading.demand ++ account.takenEdges ++
            reading.parents) := by simp
      _ ~ [reading.completion] ++ (reading.parents ++ (reading.continuations.drop reading.demand ++
            account.takenEdges)) := List.perm_append_comm.append_left _
      _ = [reading.completion] ++ (reading.continuations ++ account.takenEdges) := by
        rw [← List.append_assoc reading.parents, Reading.parents, List.take_append_drop]
      _ ~ [reading.completion] ++ (account.copied ++ reading.graph.outputs) :=
        balanced.balance.append_left _
      _ ~ account.copied ++ reading.graph.outputs ++ [reading.completion] := List.perm_append_comm
      _ = account.copied ++ (reading.graph.outputs ++ [reading.completion]) := by simp

theorem taken_iff_act (balanced : Balanced account reading) (sound : Sound reading) {number : Nat}
    {signature : Signature} {parameters : List Binding} {graph : PlanGraph} {node : Node}
    (acted : Reading.Acted domain number signature reading after parameters graph node)
    (name : String) (id : Nat) :
    { edge := name, node := id } ∈ account.taken ∨ id = reading.nextId ∧ name ∈ reading.parents ↔
      (after.graph.producers? name).isSome ∧ id ∈ after.graph.sinksAt name := by
  have producers : after.graph.producers? = reading.outfitted.producers? := by
    rw [acted.after_eq]
    exact acted.requires.producers?_eq
  have sinks (action : (reading.outfitted.producers? name).isSome = true) :
      after.graph.sinksAt name = reading.connected.sinksAt name := sound.sinksAt_act acted action
  rw [producers, balanced.taken_iff]
  by_cases own : name = reading.completion
  · have unproduced := sound.producers?_completion
    have unfed : reading.connected.sinksAt name = [] := by
      rw [own, PlanGraph.sinksAt, sound.free]
    have orphan : name ∉ reading.parents := by
      intro parent
      have action := sound.isSome_producers?_of_parent parent
      rw [own, unproduced] at action
      cases action
    constructor
    · rintro (⟨action, -⟩ | ⟨-, parent⟩)
      · rw [own, unproduced] at action
        cases action
      · exact absurd parent orphan
    · rintro ⟨action, fed⟩
      rw [sinks action, unfed] at fed
      cases fed
  · have same : reading.outfitted.producers? name = reading.graph.producers? name := by
      rw [reading.producers?_outfitted, if_neg own]
    rw [same] at sinks ⊢
    constructor
    · rintro (⟨action, fed⟩ | ⟨rfl, parent⟩)
      · rw [sinks action, sound.mem_sinksAt_connected]
        exact ⟨action, Or.inl fed⟩
      · have action := sound.isSome_producers?_of_parent parent
        rw [sinks action, sound.mem_sinksAt_connected]
        exact ⟨action, Or.inr ⟨rfl, parent⟩⟩
    · rintro ⟨action, fed⟩
      rw [sinks action, sound.mem_sinksAt_connected] at fed
      exact fed.imp_left fun older => ⟨action, older⟩

theorem act (balanced : Balanced account reading) (sound : Sound reading) {signature : Signature}
    (token : line.token? = some (.action signature)) {parameters : List Binding} {graph : PlanGraph}
    {node : Node}
    (acted : Reading.Acted domain line.number signature reading after parameters graph node) :
    Balanced (reading.enter line account) after where
  balance := by
    have none : reading.copies line = [] := by rw [Reading.copies, token]
    rw [Reading.enter, none, List.append_nil, Account.takenEdges, List.map_append,
      Reading.map_edge_takes token]
    exact balanced.balance_act acted
  taken_iff := by
    intro name id
    rw [← balanced.taken_iff_act sound acted, Reading.enter, Reading.takes_of_action token,
      List.mem_append, List.mem_map]
    apply or_congr Iff.rfl
    constructor
    · rintro ⟨parent, member, same⟩
      cases same
      exact ⟨rfl, member⟩
    · rintro ⟨rfl, member⟩
      exact ⟨name, member, rfl⟩

theorem stepped (balanced : Balanced account reading) (sound : Sound reading)
    (stepped : Reading.Stepped domain line reading after) :
    Balanced (reading.enter line account) after := by
  rcases stepped.acted_or_steered with ⟨_, _, _, _, token, acted⟩ | steered
  · exact balanced.act sound token acted
  · have moves := stepped.moves
    apply balanced.steer steered
    by_cases popped : line.token? = some .pop
    · have none : reading.copies line = [] := by rw [Reading.copies, popped]
      rw [none]
      exact moves.pop popped
    · rw [moves.other steered.silent popped]

theorem foldlM (balanced : Balanced account reading) (sound : Sound reading) {lines : List TraceLine}
    (run : lines.foldlM (Reading.step domain) reading = .ok after) :
    Balanced (reading.account domain account lines) after := by
  induction lines generalizing account reading with
  | nil =>
      cases run
      exact balanced
  | cons line lines ih =>
      rw [List.foldlM_cons, except_bind_eq_ok] at run
      obtain ⟨middle, step, rest⟩ := run
      have stepped := Reading.stepped_of_step step
      rw [Reading.account, step]
      exact ih (balanced.stepped sound stepped) (sound.stepped stepped) rest

variable {name : String} {edge : Edge}

theorem mem_sinks_iff (balanced : Balanced account reading)
    (held : reading.graph.edge? name = some edge) (kind : edge.kind = .action) (id : Nat) :
    { edge := name, node := id } ∈ account.taken ↔ id ∈ edge.sinks := by
  rw [balanced.taken_iff, PlanGraph.sinksAt_of_edge? held, PlanGraph.producers?_of_edge? held kind]
  exact and_iff_right rfl

theorem count_eq (balanced : Balanced account reading) (outputs : reading.graph.outputs.count name = 1) :
    reading.continuations.count name + account.takenEdges.count name =
      1 + account.copied.count name := by
  have count := balanced.balance.count_eq name
  rw [List.count_append, List.count_append, outputs] at count
  omega

/-- An edge without sinks was never taken, so it must be live. -/
theorem live_of_unfed (balanced : Balanced account reading)
    (outputs : reading.graph.outputs.count name = 1) (held : reading.graph.edge? name = some edge)
    (kind : edge.kind = .action) (unfed : edge.sinks = []) : name ∈ reading.continuations := by
  have untaken : name ∉ account.takenEdges := by
    intro member
    obtain ⟨⟨_, id⟩, taken, rfl⟩ := List.mem_map.mp member
    have sink := (balanced.mem_sinks_iff held kind id).mp taken
    rw [unfed] at sink
    cases sink
  have count := balanced.count_eq outputs
  rw [List.count_eq_zero_of_not_mem untaken] at count
  apply List.count_pos_iff.mp
  omega

end Balanced

/-- What holds of the stack behind any lines. There are as many live and taken continuations with the
edge of an action as there are copies of the edge and the edge itself. -/
structure Conserved (domain : Domain) (account : Account) (reading : Reading) : Prop where
  conserved : ∀ name edge, reading.graph.edge? name = some edge → edge.kind = .action →
    reading.continuations.count name + account.takenEdges.count name =
      1 + account.copied.count name
  live : ∀ name ∈ reading.continuations, ∃ edge, reading.graph.edge? name = some edge ∧
    edge.kind = .action
  taken_iff : ∀ name edge, reading.graph.edge? name = some edge → edge.kind = .action →
    ∀ id, { edge := name, node := id } ∈ account.taken ↔ id ∈ edge.sinks
  waiting : ∀ name edge, reading.graph.edge? name = some edge → edge.kind = .action →
    edge.sinks = [] → name ∈ reading.continuations
  moves : ∀ line after, reading.step domain line = .ok after → Reading.Moves line reading after

theorem Reading.conserved_of_foldlM {domain : Domain} {freeId : Nat} {lines : List TraceLine}
    {reading : Reading}
    (run : lines.foldlM (Reading.step domain) { nextId := freeId } = .ok reading) :
    Conserved domain (Reading.account domain { nextId := freeId } {} lines) reading := by
  have reads := Reads.start.foldlM run
  rw [List.nil_append] at reads
  have sound := Sound.reads reads
  have balanced := (Balanced.start freeId).foldlM (Sound.start freeId) run
  have ids : (reading.graph.nodes.map Node.id).Nodup := by
    rw [(Recorded.reads reads).ids]
    exact List.nodup_range'
  constructor
  · intro name edge held kind
    exact balanced.count_eq (sound.count_outputs ids held kind)
  · intro name member
    obtain ⟨sources, produced⟩ := sound.live name member
    obtain ⟨edge, held, kind, -⟩ := PlanGraph.producers?_eq_some_iff.mp produced
    exact ⟨edge, held, kind⟩
  · intro name edge held kind
    exact balanced.mem_sinks_iff held kind
  · intro name edge held kind
    exact balanced.live_of_unfed (sound.count_outputs ids held kind) held kind
  · intro line after step
    exact (stepped_of_step step).moves

def mergeLines : List TraceLine :=
  [⟨2, "0: observe-at r a"⟩, ⟨3, "1: ramificate"⟩, ⟨4, "2: shed"⟩, ⟨5, "3: move r a b"⟩]

/-- The last action merges two copies of one edge: it takes the edge twice, as its only parent. -/
theorem merge_conserved : ∃ reading,
    mergeLines.foldlM (Reading.step .rooms) { nextId := 0 } = .ok reading ∧
    reading.continuations = ["e1-action"] ∧
    (reading.graph.edge? "e0").map Edge.sinks = some [1] ∧
    Conserved .rooms { taken := [⟨"e0", 1⟩, ⟨"e0", 1⟩], copied := ["e0"] } reading := by
  have evaluated : ∃ reading ∈ (mergeLines.foldlM (Reading.step .rooms) { nextId := 0 }).toOption,
      reading.continuations = ["e1-action"] ∧
      (reading.graph.edge? "e0").map Edge.sinks = some [1] := by decide +kernel
  have account : Reading.account .rooms { nextId := 0 } {} mergeLines =
      { taken := [⟨"e0", 1⟩, ⟨"e0", 1⟩], copied := ["e0"] } := by decide +kernel
  obtain ⟨reading, given, stack, sinks⟩ := evaluated
  have run := mem_toOption given
  have conserved := Reading.conserved_of_foldlM run
  rw [account] at conserved
  exact ⟨reading, run, stack, sinks, conserved⟩

end ContingentPlan
