import ContingentPlan.Proofs.Reading.Follow
import ContingentPlan.Session

/-!
Plans whose branches are never merged. The true branch of a fork always starts behind its
observation. The false branch does so exactly when the true branch has no fork of its own: a pop only
exchanges the two topmost continuations, so behind a fork it brings up an end of the true branch
instead of the copy that belongs to the observation.
-/

namespace ContingentPlan

inductive PlanTree
  | done
  | action (signature : Signature) (rest : PlanTree)
  | fork (observation : Signature) (whenTrue whenFalse : PlanTree)

namespace PlanTree

def tokens : PlanTree → List Token
  | done => []
  | action signature rest => .action signature :: rest.tokens
  | fork observation whenTrue whenFalse =>
      .action observation :: .ramificate :: (whenTrue.tokens ++ .pop :: whenFalse.tokens)

def size : PlanTree → Nat
  | done => 0
  | action _ rest => rest.size + 1
  | fork _ whenTrue whenFalse => whenTrue.size + whenFalse.size + 1

def first? : PlanTree → Option Signature
  | done => none
  | action signature _ => some signature
  | fork observation _ _ => some observation

def WellFormed : PlanTree → Prop
  | done => True
  | action signature rest => signature.observedFact? = none ∧ rest.WellFormed
  | fork observation whenTrue whenFalse =>
      observation.observedFact?.isSome ∧ whenTrue.first?.isSome ∧ whenFalse.first?.isSome ∧
        whenTrue.WellFormed ∧ whenFalse.WellFormed

def Straight : PlanTree → Prop
  | done => True
  | action _ rest => rest.Straight
  | fork .. => False

/-- A law that holds at every fork of a tree whose actions have the numbers from `id` on. -/
def AtForks (law : Nat → Signature → PlanTree → PlanTree → Prop) : PlanTree → Nat → Prop
  | done, _ => True
  | action _ rest, id => rest.AtForks law (id + 1)
  | fork observation whenTrue whenFalse, id =>
      law id observation whenTrue whenFalse ∧
        whenTrue.AtForks law (id + 1) ∧ whenFalse.AtForks law (id + 1 + whenTrue.size)

theorem AtForks.imp {law weaker : Nat → Signature → PlanTree → PlanTree → Prop} {tree : PlanTree}
    {id : Nat} (holds : tree.AtForks law id)
    (implies : ∀ id observation whenTrue whenFalse, law id observation whenTrue whenFalse →
      weaker id observation whenTrue whenFalse) : tree.AtForks weaker id := by
  induction tree generalizing id with
  | done => trivial
  | action signature rest ih => exact ih holds
  | fork observation whenTrue whenFalse ihTrue ihFalse =>
      exact ⟨implies _ _ _ _ holds.1, ihTrue holds.2.1, ihFalse holds.2.2⟩

end PlanTree

def PlanTree.Starts (graph : PlanGraph) (tree : PlanTree) (id origin : Nat) (outcome : Bool)
    (fact : String) : Prop :=
  ∃ signature, tree.first? = some signature ∧ graph.Fed id signature [origin] ∧
    graph.Gated id outcome fact

theorem PlanTree.Starts.grow {graph after : PlanGraph} (grows : Grows graph after) {tree : PlanTree}
    {id origin : Nat} {outcome : Bool} {fact : String}
    (starts : tree.Starts graph id origin outcome fact) :
    tree.Starts after id origin outcome fact := by
  obtain ⟨signature, first, fed, gated⟩ := starts
  exact ⟨signature, first, grows.fed fed, grows.gated gated⟩

/-- Where the two branches of a fork start. Behind a fork in the true branch the false branch starts
at an action of the true branch. -/
structure Routes (graph : PlanGraph) (id : Nat) (observation : Signature)
    (whenTrue whenFalse : PlanTree) (fact : String) : Prop where
  observed : observation.observedFact? = some fact
  trueStart : whenTrue.Starts graph (id + 1) id true fact
  falseStart : whenTrue.Straight →
    whenFalse.Starts graph (id + 1 + whenTrue.size) id false fact
  stray : ¬ whenTrue.Straight → ∃ leaf signature, id < leaf ∧ leaf < id + 1 + whenTrue.size ∧
    whenFalse.first? = some signature ∧ graph.Fed (id + 1 + whenTrue.size) signature [leaf]

def Routed (graph : PlanGraph) (tree : PlanTree) (id : Nat) : Prop :=
  tree.AtForks (fun id observation whenTrue whenFalse =>
    ∃ fact, Routes graph id observation whenTrue whenFalse fact) id

theorem Routed.grow {graph after : PlanGraph} (grows : Grows graph after) {tree : PlanTree}
    {id : Nat} (routed : Routed graph tree id) : Routed after tree id := by
  apply routed.imp
  intro id observation whenTrue whenFalse ⟨fact, routes⟩
  refine ⟨fact, routes.observed, routes.trueStart.grow grows, ?_, ?_⟩
  · intro straight
    exact (routes.falseStart straight).grow grows
  · intro forked
    obtain ⟨leaf, signature, above, below, first, fed⟩ := routes.stray forked
    exact ⟨leaf, signature, above, below, first, grows.fed fed⟩

structure Ends (tree : PlanTree) (before : Option Nat) (reading after : Reading)
    (leaves : List Nat) : Prop where
  stack : ∃ edges, after.continuations = edges ++ reading.continuations.tail ∧
    after.graph.Completes leaves edges
  single : tree.Straight → leaves.length ≤ 1
  several : ¬ tree.Straight → 2 ≤ leaves.length
  empty : tree.first? = none → leaves = before.toList
  inside : tree.first?.isSome → leaves ≠ [] ∧
    ∀ leaf ∈ leaves, reading.nextId ≤ leaf ∧ leaf < after.nextId

structure Threaded (tree : PlanTree) (before : Option Nat) (reading after : Reading) : Prop
    extends Advances reading after where
  nextId : after.nextId = reading.nextId + tree.size
  ends : ∃ leaves, Ends tree before reading after leaves
  observations : ∃ newer, after.observations = newer ++ reading.observations ∧
    (tree.Straight → newer = [])
  warnings : after.warnings = reading.warnings
  fed : ∀ signature, tree.first? = some signature →
    after.graph.Fed reading.nextId signature before.toList
  gated : tree.first?.isSome → reading.gated = true → ∀ fact older,
    reading.observations = fact :: older →
    after.graph.Gated reading.nextId reading.outcome fact
  routed : Routed after.graph tree reading.nextId

/-- What an observation, a branch token, the true branch and the pop behind it do. The action
`lower` is the one whose edge comes up to feed the false branch. -/
structure Turned (observation : Signature) (whenTrue : PlanTree) (fact : String)
    (before : Option Nat) (lower : Nat) (reading popped : Reading) : Prop
    extends Advances reading popped where
  nextId : popped.nextId = reading.nextId + 1 + whenTrue.size
  fed : popped.graph.Fed reading.nextId observation before.toList
  gate : reading.gated = true → ∀ fact older, reading.observations = fact :: older →
    popped.graph.Gated reading.nextId reading.outcome fact
  observed : observation.observedFact? = some fact
  trueStart : whenTrue.Starts popped.graph (reading.nextId + 1) reading.nextId true fact
  trueRouted : Routed popped.graph whenTrue (reading.nextId + 1)
  awaits : popped.Awaits (some lower)
  straight : whenTrue.Straight →
    lower = reading.nextId ∧ popped.observations = fact :: reading.observations
  stray : ¬ whenTrue.Straight → reading.nextId < lower ∧ lower < popped.nextId
  kept : ∃ leaves edges, popped.continuations.tail = edges ++ reading.continuations.tail ∧
    popped.graph.Completes leaves edges ∧ leaves ≠ [] ∧
    ∀ leaf ∈ leaves, reading.nextId ≤ leaf ∧ leaf < popped.nextId
  gated : popped.gated = true
  outcome : popped.outcome = false
  observations : ∃ newer, popped.observations = newer ++ fact :: reading.observations
  warnings : popped.warnings = reading.warnings

theorem missingObservations_eq_nil {reading : Reading}
    (governed : reading.gated = true → reading.observations ≠ []) (line : Nat) (action : String) :
    reading.missingObservations line action = [] := by
  unfold Reading.missingObservations
  cases gated : reading.gated with
  | false => simp
  | true =>
      have present := governed gated
      simp [present]

/-- Below the ends of a true branch lies the edge of its observation, so the second entry is this
edge when there is one end, and another end when there are several. -/
theorem Ends.two_on_top {tree : PlanTree} {before : Option Nat} {reading after : Reading}
    {leaves : List Nat} (ends : Ends tree before reading after leaves) (present : leaves ≠ [])
    {origin : String} {below : List String} (stack : reading.continuations.tail = origin :: below)
    {id : Nat} (named : after.graph.completionEdge? id = some origin) :
    ∃ upper lower others upperEdge lowerEdge more, leaves ++ [id] = upper :: lower :: others ∧
      after.continuations = upperEdge :: lowerEdge :: (more ++ below) ∧
      after.graph.completionEdge? lower = some lowerEdge ∧
      after.graph.Completes (upper :: others) (upperEdge :: more) ∧
      (tree.Straight → lower = id) ∧ (¬ tree.Straight → lower ∈ leaves) := by
  obtain ⟨edges, continuations, completes⟩ := ends.stack
  rw [stack] at continuations
  match leaves, edges with
  | [], _ => exact absurd rfl present
  | _ :: _, [] => cases completes
  | [upper], upperEdge :: more =>
      obtain ⟨upperNamed, rest⟩ := PlanGraph.completes_cons.mp completes
      have none : more = [] := by simpa [PlanGraph.Completes] using rest
      subst none
      refine ⟨upper, id, [], upperEdge, origin, [], rfl, continuations, named,
        PlanGraph.completes_singleton.mpr upperNamed, fun _ => rfl, ?_⟩
      intro forks
      have several := ends.several forks
      simp at several
  | upper :: lower :: others, [_] =>
      cases (PlanGraph.completes_cons.mp completes).2
  | upper :: lower :: others, upperEdge :: lowerEdge :: more =>
      obtain ⟨upperNamed, rest⟩ := PlanGraph.completes_cons.mp completes
      obtain ⟨lowerNamed, othersNamed⟩ := PlanGraph.completes_cons.mp rest
      have all := othersNamed.append (PlanGraph.completes_singleton.mpr named)
      refine ⟨upper, lower, others ++ [id], upperEdge, lowerEdge, more ++ [origin], rfl, ?_,
        lowerNamed, PlanGraph.completes_cons.mpr ⟨upperNamed, all⟩, ?_, ?_⟩
      · rw [continuations]
        simp
      · intro straight
        have single := ends.single straight
        simp at single
      · intro _
        simp

theorem Forked.turn {observation : Signature} {whenTrue : PlanTree} {before : Option Nat}
    {domain : Domain} {reading branched trueEnd after : Reading} {tokens : List Token}
    {fact : String} (forked : Forked observation before reading branched)
    (trueTree : Threaded whenTrue (some reading.nextId) branched trueEnd)
    (observed : observation.observedFact? = some fact) (trueStarts : whenTrue.first?.isSome)
    (governed : reading.gated = true → reading.observations ≠ [])
    (run : Reading.Follows domain (.pop :: tokens) trueEnd after) :
    ∃ popped lower, Turned observation whenTrue fact before lower reading popped ∧
      Reading.Follows domain tokens popped after := by
  obtain ⟨origin, named, branchedStack⟩ := forked.stack
  have branchedId := forked.nextId
  have branchedFacts : branched.observations = fact :: reading.observations := by
    rw [forked.observations, observed]
    rfl
  have branchedGated : branched.gated = true := by
    rw [forked.gated, observed]
    rfl
  have branchedOutcome : branched.outcome = true := by
    rw [forked.outcome, observed]
    rfl
  obtain ⟨actionLine, warnings⟩ := forked.warnings
  rw [missingObservations_eq_nil governed, List.append_nil] at warnings
  obtain ⟨leaves, ends⟩ := trueTree.ends
  obtain ⟨newer, facts, newerNil⟩ := trueTree.observations
  rw [branchedFacts] at facts
  obtain ⟨present, inside⟩ := ends.inside trueStarts
  have belowBranched : branched.continuations.tail = origin :: reading.continuations.tail := by
    rw [branchedStack, List.tail_cons]
  obtain ⟨upper, lower, others, upperEdge, lowerEdge, more, split, stack, lowerNamed, completes,
    lowerStraight, lowerStray⟩ :=
    ends.two_on_top present belowBranched (trueTree.grows.completionEdge? named)
  obtain ⟨line, token, run⟩ := run.pop
  obtain ⟨pops, poppedEq⟩ := Advances.pop trueTree.sound trueTree.merging stack line token
  generalize trueEnd.pop line token = popped at pops poppedEq run
  have count := trueTree.nextId
  have poppedId : popped.nextId = trueEnd.nextId := by rw [poppedEq]
  have poppedFacts : popped.observations = newer ++ fact :: reading.observations := by
    rw [poppedEq, ← facts]
  have toPopped := trueTree.grows.trans pops.grows
  refine ⟨popped, lower,
    ⟨(forked.toAdvances.trans trueTree.toAdvances).trans pops, ?_, toPopped.fed forked.fed, ?_,
      observed, ?_, ?_, ?_, ?_, ?_, ?_, ?_, ?_, ⟨newer, poppedFacts⟩, ?_⟩, run⟩
  · rw [poppedId, count, branchedId]
  · intro gated governing older same
    exact toPopped.gated (forked.gate gated governing older same)
  · obtain ⟨first, opening⟩ := Option.isSome_iff_exists.mp trueStarts
    have fed := trueTree.fed first opening
    have gated := trueTree.gated trueStarts branchedGated fact _ branchedFacts
    rw [branchedId] at fed gated
    rw [branchedOutcome] at gated
    exact ⟨first, opening, pops.grows.fed fed, pops.grows.gated gated⟩
  · have routed := trueTree.routed.grow pops.grows
    rwa [branchedId] at routed
  · rw [Reading.awaits_some]
    exact ⟨lowerEdge, _, by rw [poppedEq], pops.grows.completionEdge? lowerNamed⟩
  · intro straight
    refine ⟨lowerStraight straight, ?_⟩
    rw [poppedFacts, newerNil straight, List.nil_append]
  · intro forks
    have bounds := inside lower (lowerStray forks)
    omega
  · refine ⟨upper :: others, upperEdge :: more, by rw [poppedEq]; rfl,
      pops.grows.completes completes, by simp, ?_⟩
    intro leaf member
    have among : leaf ∈ leaves ++ [reading.nextId] := by
      rw [split]
      rcases List.mem_cons.mp member with rfl | deeper
      · exact List.mem_cons_self
      · exact List.mem_cons_of_mem _ (List.mem_cons_of_mem _ deeper)
    rcases mem_append_singleton.mp among with own | origin
    · have bounds := inside leaf own
      omega
    · omega
  · rw [poppedEq]
  · rw [poppedEq]
  · rw [poppedEq]
    exact trueTree.warnings.trans warnings

namespace Threaded

variable {domain : Domain} {reading middle after : Reading} {before : Option Nat}

theorem done (sound : Sound reading) (merging : reading.merging = false)
    (awaits : reading.Awaits before) : Threaded .done before reading reading := by
  refine ⟨.refl sound merging, rfl, ⟨before.toList, ?_⟩, ⟨[], rfl, fun _ => rfl⟩, rfl,
    by simp [PlanTree.first?], by simp [PlanTree.first?], trivial⟩
  constructor
  · cases before with
    | none =>
        have empty : reading.continuations = [] := by simpa [Reading.Awaits] using awaits
        exact ⟨[], by simp [empty], rfl⟩
    | some id =>
        obtain ⟨edge, below, stack, named⟩ := Reading.awaits_some.mp awaits
        exact ⟨[edge], by simp [stack], PlanGraph.completes_singleton.mpr named⟩
  · intro _
    cases before <;> simp
  · intro forked
    exact absurd trivial forked
  · intro _
    rfl
  · simp [PlanTree.first?]

theorem action {line : Nat} {signature : Signature} {parameters : List Binding}
    {graph : PlanGraph} {node : Node} {rest : PlanTree} (sound : Sound reading)
    (merging : reading.merging = false) (awaits : reading.Awaits before)
    (governed : reading.gated = true → reading.observations ≠ [])
    (acted : Reading.Acted domain line signature reading middle parameters graph node)
    (observations : middle.observations = reading.observations)
    (later : Threaded rest (some reading.nextId) middle after) :
    Threaded (.action signature rest) before reading after := by
  have nextId := acted.nextId_after
  have count := later.nextId
  have warnings : middle.warnings = reading.warnings := by
    rw [acted.after_eq, missingObservations_eq_nil governed]
    simp
  obtain ⟨leaves, ends⟩ := later.ends
  have facts := later.observations
  have routed := later.routed
  have stack := ends.stack
  rw [observations] at facts
  rw [nextId] at routed
  rw [acted.tail_after merging] at stack
  refine ⟨(Advances.act sound acted).trans later.toAdvances, ?_,
    ⟨leaves, stack, ends.single, ends.several, by simp [PlanTree.first?], ?_⟩, facts, ?_, ?_, ?_,
    routed⟩
  · rw [count, nextId, PlanTree.size]
    omega
  · intro _
    cases opening : rest.first? with
    | none =>
        rw [ends.empty opening]
        simp
        omega
    | some following =>
        obtain ⟨present, inside⟩ := ends.inside (by simp [opening])
        refine ⟨present, ?_⟩
        intro leaf member
        have bounds := inside leaf member
        omega
  · rw [later.warnings, warnings]
  · intro other opening
    cases opening
    exact later.grows.fed (sound.fed_act acted merging awaits)
  · intro _ gated fact older same
    exact later.grows.gated (sound.gated_act acted gated same)

theorem fork {observation : Signature} {whenTrue whenFalse : PlanTree} {fact : String}
    {lower : Nat} {popped : Reading}
    (turned : Turned observation whenTrue fact before lower reading popped)
    (falseTree : Threaded whenFalse (some lower) popped after)
    (falseStarts : whenFalse.first?.isSome) :
    Threaded (.fork observation whenTrue whenFalse) before reading after := by
  have poppedId := turned.nextId
  have count := falseTree.nextId
  have grows := falseTree.grows
  obtain ⟨first, opening⟩ := Option.isSome_iff_exists.mp falseStarts
  have falseFed := falseTree.fed first opening
  have falseRouted := falseTree.routed
  rw [poppedId] at falseFed falseRouted
  have routes : Routes after.graph reading.nextId observation whenTrue whenFalse fact := by
    refine ⟨turned.observed, turned.trueStart.grow grows, ?_, ?_⟩
    · intro straight
      obtain ⟨own, facts⟩ := turned.straight straight
      have gated := falseTree.gated falseStarts turned.gated fact _ facts
      rw [poppedId, turned.outcome] at gated
      rw [own] at falseFed
      exact ⟨first, opening, falseFed, gated⟩
    · intro forks
      obtain ⟨above, below⟩ := turned.stray forks
      exact ⟨lower, first, above, by omega, opening, falseFed⟩
  obtain ⟨falseLeaves, falseEnds⟩ := falseTree.ends
  obtain ⟨filled, falseInside⟩ := falseEnds.inside falseStarts
  obtain ⟨leaves, edges, keptStack, completes, present, inside⟩ := turned.kept
  have falsePositive := List.length_pos_iff.mpr filled
  have positive := List.length_pos_iff.mpr present
  have ends : Ends (.fork observation whenTrue whenFalse) before reading after
      (falseLeaves ++ leaves) := by
    constructor
    · obtain ⟨falseEdges, falseStack, falseCompletes⟩ := falseEnds.stack
      refine ⟨falseEdges ++ edges, ?_, falseCompletes.append (grows.completes completes)⟩
      rw [falseStack, keptStack, List.append_assoc]
    · exact False.elim
    · intro _
      rw [List.length_append]
      omega
    · simp [PlanTree.first?]
    · intro _
      refine ⟨by simp [filled], ?_⟩
      intro leaf member
      rcases List.mem_append.mp member with late | early
      · have bounds := falseInside leaf late
        omega
      · have bounds := inside leaf early
        omega
  refine ⟨turned.toAdvances.trans falseTree.toAdvances, ?_, ⟨_, ends⟩, ?_, ?_, ?_, ?_,
    ⟨fact, routes⟩, turned.trueRouted.grow grows, falseRouted⟩
  · rw [PlanTree.size]
    omega
  · obtain ⟨newest, later, -⟩ := falseTree.observations
    obtain ⟨newer, facts⟩ := turned.observations
    rw [facts] at later
    exact ⟨newest ++ newer ++ [fact], by simp [later], False.elim⟩
  · rw [falseTree.warnings, turned.warnings]
  · intro signature same
    cases same
    exact grows.fed turned.fed
  · intro _ gated governing older same
    exact grows.gated (turned.gate gated governing older same)

end Threaded

theorem threaded (tree : PlanTree) (wellFormed : tree.WellFormed) {domain : Domain}
    {reading after : Reading} {before : Option Nat} (sound : Sound reading)
    (merging : reading.merging = false) (awaits : reading.Awaits before)
    (governed : reading.gated = true → reading.observations ≠ [])
    (run : Reading.Follows domain tree.tokens reading after) :
    Threaded tree before reading after := by
  induction tree generalizing reading after before with
  | done =>
      cases run
      exact .done sound merging awaits
  | action signature rest ih =>
      obtain ⟨unobserving, restFormed⟩ := wellFormed
      obtain ⟨line, parameters, middle, graph, node, acted, run⟩ := run.action
      have first := Advances.act sound acted
      have ungated : middle.gated = false := by
        rw [acted.after_eq, unobserving]
        rfl
      have observations : middle.observations = reading.observations := by
        rw [acted.after_eq, unobserving]
        rfl
      have later := ih restFormed first.sound first.merging (sound.awaits_act acted)
        (by simp [ungated]) run
      exact .action sound merging awaits governed acted observations later
  | fork observation whenTrue whenFalse ihTrue ihFalse =>
      obtain ⟨observes, trueStarts, falseStarts, trueFormed, falseFormed⟩ := wellFormed
      obtain ⟨fact, observed⟩ := Option.isSome_iff_exists.mp observes
      obtain ⟨branched, forked, run⟩ := run.fork sound merging awaits
      obtain ⟨origin, named, stack⟩ := forked.stack
      obtain ⟨trueEnd, trueRun, run⟩ := run.split
      have trueTree := ihTrue trueFormed forked.sound forked.merging
        (Reading.awaits_some.mpr ⟨origin, _, stack, named⟩)
        (by simp [forked.observations, observed]) trueRun
      obtain ⟨popped, lower, turned, run⟩ :=
        forked.turn trueTree observed trueStarts governed run
      obtain ⟨newer, facts⟩ := turned.observations
      have falseTree := ihFalse falseFormed turned.sound turned.merging turned.awaits
        (by simp [facts]) run
      exact .fork turned falseTree falseStarts

/-- The true branch starts at the observation of its fork, and the false branch does so exactly when
the true branch is straight. -/
def Branches (graph : PlanGraph) (id : Nat) (observation : Signature)
    (whenTrue whenFalse : PlanTree) : Prop :=
  ∃ fact, Routes graph id observation whenTrue whenFalse fact ∧
    (whenFalse.Starts graph (id + 1 + whenTrue.size) id false fact ↔ whenTrue.Straight)

theorem Sound.branches {reading : Reading} (sound : Sound reading) {id : Nat}
    {observation : Signature} {whenTrue whenFalse : PlanTree} {fact : String}
    (routes : Routes reading.graph id observation whenTrue whenFalse fact) :
    Branches reading.graph id observation whenTrue whenFalse := by
  refine ⟨fact, routes, ?_, routes.falseStart⟩
  rintro ⟨_, _, ⟨node, stored, -, sources⟩, -⟩
  apply Classical.byContradiction
  intro forks
  obtain ⟨leaf, signature, above, -, -, other, sameNode, -, strays⟩ := routes.stray forks
  rw [stored, Option.some.injEq] at sameNode
  subst sameNode
  unfold PlanGraph.Completes at sources strays
  rw [← strays, List.map_singleton, List.map_singleton, List.cons.injEq] at sources
  have known : ∃ name, reading.graph.completionEdge? leaf = some name := by
    cases inputs : reading.graph.actionInputs node with
    | nil => simp [inputs] at strays
    | cons name names =>
        rw [inputs, List.map_singleton, List.map_cons, List.cons.injEq] at strays
        exact ⟨name, strays.1⟩
  obtain ⟨name, named⟩ := known
  have same := sound.completionEdge?_injective (sources.1.trans named) named
  omega

theorem Plan.branches_of_ofTrace {domain : Domain} {trace : String} {freeId : Nat} {plan : Plan}
    {block : List TraceLine} {tree : PlanTree} (announced : planBlock? trace = some block)
    (generated : block.map TraceLine.token? = tree.tokens.map some)
    (wellFormed : tree.WellFormed) (read : Plan.ofTrace domain trace freeId = .ok plan) :
    plan.report.warnings = [] ∧ tree.AtForks (Branches plan.graph) freeId := by
  rcases Plan.reads_of_ofTrace read with ⟨absent, -⟩ | ⟨other, reading, found, run, rfl⟩
  · rw [announced] at absent
    cases absent
  rw [announced, Option.some.injEq] at found
  subst found
  have start : Sound { nextId := freeId } := Sound.start freeId
  have threading : Threaded tree none { nextId := freeId } reading :=
    threaded tree wellFormed start rfl rfl (by simp) (Reading.follows_of_foldlM generated run)
  refine ⟨threading.warnings, ?_⟩
  apply threading.routed.imp
  intro id observation whenTrue whenFalse ⟨fact, routes⟩
  exact threading.sound.branches routes

def nestedTrace : String :=
  "\n".intercalate ["ff: found legal plan as follows", "0: observe-at r a", "1: ramificate",
    "2: observe-at r b", "3: ramificate", "4: move r b c", "5: pop", "6: move r a c", "7: pop",
    "8: move r a b", "time spent: 0"]

def PlanTree.inner : PlanTree :=
  .fork ⟨"observe-at", ["r", "b"]⟩ (.action ⟨"move", ["r", "b", "c"]⟩ .done)
    (.action ⟨"move", ["r", "a", "c"]⟩ .done)

def PlanTree.outer : PlanTree := .action ⟨"move", ["r", "a", "b"]⟩ .done

def PlanTree.nested : PlanTree := .fork ⟨"observe-at", ["r", "a"]⟩ inner outer

theorem PlanTree.wellFormed_nested : nested.WellFormed :=
  ⟨by decide +kernel, rfl, rfl,
    ⟨by decide +kernel, rfl, rfl, ⟨by decide +kernel, trivial⟩, by decide +kernel, trivial⟩,
    by decide +kernel, trivial⟩

/-- The false branch of the first observation does not start at this observation. -/
theorem nested_branches : ∃ block plan, planBlock? nestedTrace = some block ∧
    block.map TraceLine.token? = PlanTree.nested.tokens.map some ∧ PlanTree.nested.WellFormed ∧
    Plan.ofTrace .rooms nestedTrace 0 = .ok plan ∧ plan.report.warnings = [] ∧
    PlanTree.nested.AtForks (Branches plan.graph) 0 ∧
    ¬ PlanTree.outer.Starts plan.graph 4 0 false "at r a" := by
  obtain ⟨block, plan, announced, generated, read, -, -⟩ :=
    Plan.exists_of_block (show (planBlock? nestedTrace).map (fun block =>
      (block.map TraceLine.token?, (block.foldlM (Reading.step .rooms) { nextId := 0 }).toOption.map
        (·.graph.nodes.length))) = some (PlanTree.nested.tokens.map some, some 5) by decide +kernel)
  have wellFormed := PlanTree.wellFormed_nested
  obtain ⟨warnings, branches⟩ := Plan.branches_of_ofTrace announced generated wellFormed read
  refine ⟨block, plan, announced, generated, wellFormed, read, warnings, branches, ?_⟩
  obtain ⟨⟨fact, routes, onlyStraight⟩, -⟩ := branches
  have observed := routes.observed
  have first : (Signature.mk "observe-at" ["r", "a"]).observedFact? = some "at r a" := by
    decide +kernel
  rw [first, Option.some.injEq] at observed
  subst observed
  intro starts
  exact onlyStraight.mp starts

end ContingentPlan
