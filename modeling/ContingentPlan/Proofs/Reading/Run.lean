import ContingentPlan.Proofs.Reading.Action

/-!
Runs over the lines of a plan block: the readings that are reached line by line, and what each line
does to the reading before it.
-/

namespace ContingentPlan

def TraceLine.token? (line : TraceLine) : Option Token := (tokenText? line.text).bind Token.ofText?

namespace Reading

theorem graph_ramificate (reading : Reading) (line : Nat) :
    (reading.ramificate line).graph = reading.graph := by
  unfold ramificate
  split
  · split <;> rfl
  · rfl

theorem nextId_ramificate (reading : Reading) (line : Nat) :
    (reading.ramificate line).nextId = reading.nextId := by
  unfold ramificate
  split
  · split <;> rfl
  · rfl

theorem merging_ramificate (reading : Reading) (line : Nat) :
    (reading.ramificate line).merging = reading.merging := by
  unfold ramificate
  split
  · split <;> rfl
  · rfl

theorem mem_continuations_ramificate (reading : Reading) (line : Nat) {name : String} :
    name ∈ (reading.ramificate line).continuations ↔ name ∈ reading.continuations := by
  unfold ramificate
  split
  · split
    · rfl
    · rename_i top rest stack
      simp [stack]
  · rfl

theorem graph_pop (reading : Reading) (line : Nat) (token : String) :
    (reading.pop line token).graph = reading.graph := by
  unfold pop
  split <;> rfl

theorem nextId_pop (reading : Reading) (line : Nat) (token : String) :
    (reading.pop line token).nextId = reading.nextId := by
  unfold pop
  split <;> rfl

theorem merging_pop (reading : Reading) (line : Nat) (token : String) :
    (reading.pop line token).merging = reading.merging := by
  unfold pop
  split <;> rfl

theorem mem_continuations_pop (reading : Reading) (line : Nat) (token : String) {name : String} :
    name ∈ (reading.pop line token).continuations ↔ name ∈ reading.continuations := by
  unfold pop
  split
  · rename_i top below rest stack
    simp [stack, or_left_comm]
  · rfl

inductive Stepped (domain : Domain) (line : TraceLine) (reading : Reading) : Reading → Prop
  | malformed : line.token? = none →
      Stepped domain line reading (reading.warn line.number (.malformedLine line.text))
  | ramificate : line.token? = some .ramificate →
      Stepped domain line reading (reading.ramificate line.number)
  | shed : line.token? = some .shed → Stepped domain line reading reading.shed
  | pop : line.token? = some .pop →
      Stepped domain line reading (reading.pop line.number ((tokenText? line.text).getD ""))
  | assume : line.token? = some .assume →
      Stepped domain line reading { reading with branching := false }
  | action {signature : Signature} {after : Reading} {parameters : List Binding}
      {graph : PlanGraph} {node : Node} : line.token? = some (.action signature) →
      Acted domain line.number signature reading after parameters graph node →
      Stepped domain line reading after

theorem stepped_of_step {domain : Domain} {line : TraceLine} {reading after : Reading}
    (step : reading.step domain line = .ok after) : Stepped domain line reading after := by
  unfold Reading.step at step
  dsimp only at step
  split at step
  · rename_i token
    cases step
    exact .malformed token
  · rename_i token
    cases step
    exact .ramificate token
  · rename_i token
    cases step
    exact .shed token
  · rename_i token
    cases step
    exact .pop token
  · rename_i token
    cases step
    exact .assume token
  · rename_i signature token
    obtain ⟨parameters, graph, node, acted⟩ := acted_of_act step
    exact .action token acted

/-- What a line does that asks for no action: it may copy, exchange or mark continuations, but it adds
no node and loses no continuation. -/
structure Steered (line : TraceLine) (reading after : Reading) : Prop where
  silent : ∀ signature, line.token? ≠ some (.action signature)
  graph : after.graph = reading.graph
  nextId : after.nextId = reading.nextId
  continuations : ∀ name, name ∈ after.continuations ↔ name ∈ reading.continuations
  merging : after.merging = true → reading.merging = true ∨ line.token? = some .shed

theorem Stepped.acted_or_steered {domain : Domain} {line : TraceLine} {reading after : Reading}
    (stepped : Stepped domain line reading after) :
    (∃ signature parameters graph node, line.token? = some (.action signature) ∧
      Acted domain line.number signature reading after parameters graph node) ∨
    Steered line reading after := by
  cases stepped with
  | malformed token => exact Or.inr ⟨by simp [token], rfl, rfl, fun _ => Iff.rfl, Or.inl⟩
  | ramificate token =>
      refine Or.inr ⟨by simp [token], reading.graph_ramificate line.number,
        reading.nextId_ramificate line.number,
        fun _ => reading.mem_continuations_ramificate line.number, ?_⟩
      rw [reading.merging_ramificate]
      exact Or.inl
  | shed token => exact Or.inr ⟨by simp [token], rfl, rfl, fun _ => Iff.rfl, fun _ => Or.inr token⟩
  | pop token =>
      refine Or.inr ⟨by simp [token], reading.graph_pop line.number _,
        reading.nextId_pop line.number _, fun _ => reading.mem_continuations_pop line.number _, ?_⟩
      rw [reading.merging_pop]
      exact Or.inl
  | assume token => exact Or.inr ⟨by simp [token], rfl, rfl, fun _ => Iff.rfl, Or.inl⟩
  | action token acted => exact Or.inl ⟨_, _, _, _, token, acted⟩

inductive Reads (domain : Domain) (freeId : Nat) : List TraceLine → Reading → Prop
  | start : Reads domain freeId [] { nextId := freeId }
  | line {lines : List TraceLine} {line : TraceLine} {reading after : Reading} :
      Reads domain freeId lines reading → Stepped domain line reading after →
      Reads domain freeId (lines ++ [line]) after

theorem Reads.foldlM {domain : Domain} {freeId : Nat} {before lines : List TraceLine}
    {reading after : Reading} (reads : Reads domain freeId before reading)
    (run : lines.foldlM (step domain) reading = .ok after) :
    Reads domain freeId (before ++ lines) after := by
  induction lines generalizing before reading with
  | nil =>
      cases run
      simpa using reads
  | cons line lines ih =>
      rw [List.foldlM_cons, except_bind_eq_ok] at run
      obtain ⟨middle, step, rest⟩ := run
      simpa using ih (reads.line (stepped_of_step step)) rest

end Reading

theorem Plan.reads_of_ofTrace {domain : Domain} {trace : String} {freeId : Nat} {plan : Plan}
    (read : Plan.ofTrace domain trace freeId = .ok plan) :
    (planBlock? trace = none ∧ plan = { found := false, nextId := freeId }) ∨
      ∃ block reading, planBlock? trace = some block ∧
        block.foldlM (Reading.step domain) { nextId := freeId } = .ok reading ∧
        plan = { found := true, graph := reading.graph, nextId := reading.nextId,
                 warnings := reading.warnings } := by
  unfold Plan.ofTrace at read
  cases announced : planBlock? trace with
  | none =>
      simp only [announced, Except.ok.injEq] at read
      exact Or.inl ⟨rfl, read.symm⟩
  | some block =>
      simp only [announced] at read
      cases run : block.foldlM (Reading.step domain) { nextId := freeId } with
      | error fault => simp [run, Except.map] at read
      | ok reading =>
          simp only [run, Except.map, Except.ok.injEq] at read
          exact Or.inr ⟨block, reading, rfl, run, read.symm⟩

theorem Plan.exists_of_block {domain : Domain} {trace : String} {freeId count : Nat}
    {tokens : List Token}
    (evaluated : (planBlock? trace).map (fun block => (block.map TraceLine.token?,
      (block.foldlM (Reading.step domain) { nextId := freeId }).toOption.map
        (·.graph.nodes.length))) = some (tokens.map some, some count)) :
    ∃ block plan, planBlock? trace = some block ∧ block.map TraceLine.token? = tokens.map some ∧
      Plan.ofTrace domain trace freeId = .ok plan ∧ plan.found = true ∧
      plan.graph.nodes.length = count := by
  obtain ⟨block, announced, same⟩ := Option.map_eq_some_iff.mp evaluated
  rw [Prod.mk.injEq] at same
  cases run : block.foldlM (Reading.step domain) { nextId := freeId } with
  | error fault =>
      rw [run] at same
      cases same.2
  | ok reading =>
      rw [run] at same
      have read : Plan.ofTrace domain trace freeId = .ok
          { found := true, graph := reading.graph, nextId := reading.nextId,
            warnings := reading.warnings } := by
        simp only [Plan.ofTrace, announced, run, Except.map]
      exact ⟨block, _, announced, same.1, read, rfl, Option.some.inj same.2⟩

def Domain.rooms : Domain :=
  (((((({} : Domain).addPredicate "at" ["r", "l"]).addPredicate "e1" []).addOperator "move"
    ["r", "from", "to"]).addOperator "observe-at" ["r", "l"]).addPrecondition "move"
    ["at", "r", "from"]).addPrecondition "observe-at" ["e1"]

/-- The edge of action 1 cannot have the name `e1`, which a condition holds already. -/
def detourTrace : String :=
  "\n".intercalate ["ff: found legal plan as follows", "0: observe-at r a", "1: ramificate",
    "2: move r b c", "3: pop", "4: move r c b", "5: shed", "6: move r a b", "time spent: 0"]

def detourTokens : List Token :=
  [.action ⟨"observe-at", ["r", "a"]⟩, .ramificate, .action ⟨"move", ["r", "b", "c"]⟩, .pop,
    .action ⟨"move", ["r", "c", "b"]⟩, .shed, .action ⟨"move", ["r", "a", "b"]⟩]

theorem exists_detour : ∃ block plan, planBlock? detourTrace = some block ∧
    block.map TraceLine.token? = detourTokens.map some ∧
    Plan.ofTrace .rooms detourTrace 0 = .ok plan ∧ plan.found = true ∧
    plan.graph.nodes.length = 4 :=
  Plan.exists_of_block (by decide +kernel)

end ContingentPlan
