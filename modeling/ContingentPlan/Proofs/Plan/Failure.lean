import ContingentPlan.Proofs.Domain
import ContingentPlan.Proofs.Plan.Shape

/-!
When a plan cannot be read. The reading stops at the first action line that does not fit the domain:
at its operator, its arguments, the attributes of its preconditions or the fact whose outcome gates
it. No other line stops it, and a plan that is not read to the end leaves no graph.
-/

namespace ContingentPlan

def tupleAttribute? (domain : Domain) : ConditionTuple → Option String
  | [] => none
  | head :: _ => some (unmarkedAttribute domain (Text.lowercase head))

def firstUndeclared? (domain : Domain) (tuples : List ConditionTuple) : Option String :=
  (tuples.filterMap (tupleAttribute? domain)).find? fun name => !domain.declares name

def factAttribute (fact : String) : String := (Text.words fact).headD ""

def Domain.Accepts (domain : Domain) (signature : Signature) : Prop :=
  ∃ labels, domain.operators.find? signature.operator = some labels ∧
    signature.arguments.length ≤ labels.length

def Signature.entryKey (signature : Signature) : String :=
  Text.lowercase (Text.lowercase signature.operator)

/-- What is wrong with an action that is gated in the given way; of several things the first counts. -/
inductive Inconsistent (domain : Domain) (gating : Reading.Gating) (signature : Signature) :
    PlanFault → Prop
  | operator {known : List String} :
      signature.operator ∉ domain.operators.keys → Lists known domain.operators.keys →
      Inconsistent domain gating signature (.unknownName .operators signature.operator known)
  | arguments {labels : List String} :
      domain.operators.find? signature.operator = some labels →
      labels.length < signature.arguments.length →
      Inconsistent domain gating signature
        (.tooManyArguments signature.operator labels.length signature.arguments.length)
  | entry {known : List String} :
      domain.Accepts signature → signature.entryKey ∉ domain.preconditions.keys →
      Lists known domain.preconditions.keys →
      Inconsistent domain gating signature
        (.unknownName .preconditions (Text.lowercase signature.operator) known)
  | precondition {tuples : List ConditionTuple} {name : String} {known : List String} :
      domain.Accepts signature → domain.preconditions.find? signature.entryKey = some tuples →
      firstUndeclared? domain tuples = some name →
      Lists known (domain.predicates.keys ++ domain.functions.keys) →
      Inconsistent domain gating signature (.unknownName .attributes name known)
  | outcome {tuples : List ConditionTuple} {value : Bool} {fact : String} {known : List String} :
      domain.Accepts signature → domain.preconditions.find? signature.entryKey = some tuples →
      firstUndeclared? domain tuples = none → gating = .outcome value fact →
      domain.declares (factAttribute fact) = false →
      Lists known (domain.predicates.keys ++ domain.functions.keys) →
      Inconsistent domain gating signature (.unknownName .attributes (factAttribute fact) known)

section Faults

variable {domain : Domain} {fault : PlanFault}

theorem groundTuple_eq_error_iff {parameters : List Binding} {head : String}
    {arguments : List String} :
    groundTuple domain parameters head arguments = .error fault ↔
      domain.declares (unmarkedAttribute domain (Text.lowercase head)) = false ∧
        fault = domain.undeclared (unmarkedAttribute domain (Text.lowercase head)) := by
  rw [← Domain.attributeLabels_eq_error_iff, groundTuple]
  split <;> simp_all

theorem observationCondition_eq_error_iff {fact : String} {value : Bool} :
    observationCondition domain fact value = .error fault ↔
      domain.declares (factAttribute fact) = false ∧
        fault = domain.undeclared (factAttribute fact) := by
  rw [← Domain.attributeLabels_eq_error_iff, observationCondition, factAttribute]
  split <;> simp_all

theorem firstUndeclared?_cons_cons (head : String) (arguments : ConditionTuple)
    (tuples : List ConditionTuple) :
    firstUndeclared? domain ((head :: arguments) :: tuples) =
      if domain.declares (unmarkedAttribute domain (Text.lowercase head)) then
        firstUndeclared? domain tuples
      else some (unmarkedAttribute domain (Text.lowercase head)) := by
  rw [firstUndeclared?, List.filterMap_cons, tupleAttribute?]
  cases declared : domain.declares (unmarkedAttribute domain (Text.lowercase head)) with
  | false => simp [declared]
  | true => simp [declared, firstUndeclared?]

theorem Resolution.fault_require (resolution : Resolution) (condition : Condition) :
    (resolution.require condition).fault = resolution.fault := by
  unfold require
  split <;> rfl

/-- Repeated and empty tuples are passed over, so the first undeclared attribute decides. -/
theorem Resolution.fault_addTuples {resolution : Resolution} (sofar : resolution.fault = none)
    (tuples : List ConditionTuple) :
    (resolution.addTuples domain tuples).fault =
      (firstUndeclared? domain tuples).map domain.undeclared := by
  induction tuples generalizing resolution with
  | nil => exact sofar
  | cons tuple tuples ih =>
      cases tuple with
      | nil => exact ih sofar
      | cons head arguments =>
          rw [addTuples, firstUndeclared?_cons_cons]
          cases declared : domain.declares (unmarkedAttribute domain (Text.lowercase head)) with
          | false =>
              rw [groundTuple_eq_error_iff.mpr ⟨declared, rfl⟩]
              rfl
          | true =>
              cases grounded : groundTuple domain resolution.node.dispatch.parameters head
                  arguments with
              | error fault =>
                  rw [groundTuple_eq_error_iff, declared] at grounded
                  cases grounded.1
              | ok condition =>
                  exact ih (by rw [fault_require, sofar])

theorem PlanGraph.fault_resolve_eq_some_iff {graph : PlanGraph} {node : Node} :
    (graph.resolve domain node).fault = some fault ↔
      domain.preconditionTuples (Text.lowercase node.dispatch.name) = .error fault ∨
      ∃ tuples name, domain.preconditionTuples (Text.lowercase node.dispatch.name) = .ok tuples ∧
        firstUndeclared? domain tuples = some name ∧ fault = domain.undeclared name := by
  rw [resolve]
  cases domain.preconditionTuples (Text.lowercase node.dispatch.name) with
  | error other => simp
  | ok tuples => simp [Resolution.fault_addTuples, eq_comm]

theorem PlanGraph.fault_resolve_eq_none_iff {graph : PlanGraph} {node : Node} :
    (graph.resolve domain node).fault = none ↔
      ∃ tuples, domain.preconditionTuples (Text.lowercase node.dispatch.name) = .ok tuples ∧
        firstUndeclared? domain tuples = none := by
  rw [resolve]
  cases domain.preconditionTuples (Text.lowercase node.dispatch.name) with
  | error other => simp
  | ok tuples => simp [Resolution.fault_addTuples]

end Faults

namespace Reading

variable {domain : Domain} {reading : Reading} {signature : Signature} {fault : PlanFault}

theorem parameters_eq_error_iff :
    parameters domain signature = .error fault ↔
      domain.operatorLabels signature.operator = .error fault ∨
      ∃ labels, domain.operators.find? signature.operator = some labels ∧
        labels.length < signature.arguments.length ∧
        fault = .tooManyArguments signature.operator labels.length signature.arguments.length := by
  rw [parameters, Domain.operatorLabels]
  cases domain.operators.find? signature.operator with
  | none => simp
  | some labels =>
      by_cases many : labels.length < signature.arguments.length
      · simp [many, eq_comm]
      · simp [many]

theorem exists_parameters_iff :
    (∃ bindings, parameters domain signature = .ok bindings) ↔ domain.Accepts signature := by
  rw [parameters, Domain.operatorLabels, Domain.Accepts]
  cases domain.operators.find? signature.operator with
  | none => simp
  | some labels =>
      by_cases many : labels.length < signature.arguments.length
      · simp [many]
      · simp only [if_neg many, Except.ok.injEq, exists_eq', Option.some.injEq, exists_eq_left',
          Nat.not_lt.mp many]

theorem gate_eq_error_iff {line : Nat} {node : Node} :
    reading.gate domain line node = .error fault ↔
      ∃ value fact, reading.gating = .outcome value fact ∧
        observationCondition domain fact value = .error fault := by
  obtain ⟨continuations, observations, gated, outcome, branching, merging, nextId, graph,
    warnings⟩ := reading
  cases gated with
  | false => simp [gate, gating]
  | true =>
      cases observations with
      | nil => simp [gate, gating]
      | cons fact older =>
          cases observed : observationCondition domain fact outcome with
          | error other => simp [gate, gating, observed]
          | ok condition => simp [gate, gating, observed]

def resolved (reading : Reading) (domain : Domain) (signature : Signature)
    (bindings : List Binding) : Reading :=
  { reading with
    continuations := reading.completion :: reading.continuations.drop reading.demand
    merging := false
    nextId := reading.nextId + 1
    graph := (reading.resolution domain signature bindings).graph }

theorem act_eq_error_iff {line : Nat} :
    reading.act domain line signature = .error fault ↔
      parameters domain signature = .error fault ∨
      ∃ bindings, parameters domain signature = .ok bindings ∧
        ((reading.resolution domain signature bindings).fault = some fault ∨
          (reading.resolution domain signature bindings).fault = none ∧
            ∃ value fact, reading.gating = .outcome value fact ∧
              observationCondition domain fact value = .error fault) := by
  rw [act, except_bind_eq_error_iff]
  refine or_congr_right (exists_congr fun bindings => and_congr_right fun _ => ?_)
  have outfitted := leaveEdge_attachParents_eq reading signature bindings
  simp only [freshNode] at outfitted
  simp only [outfitted]
  cases faulty : (reading.resolution domain signature bindings).fault with
  | some other =>
      unfold resolution at faulty
      simp [faulty, throw, throwThe, MonadExceptOf.throw, bind, Except.bind]
  | none =>
      have opens : (reading.resolved domain signature bindings).gate domain line
          (reading.resolution domain signature bindings).node = .error fault ↔
            ∃ value fact, reading.gating = .outcome value fact ∧
              observationCondition domain fact value = .error fault := gate_eq_error_iff
      unfold resolution at faulty
      simp only [faulty, reduceCtorEq, false_or, true_and]
      rw [← opens, except_bind_eq_error_iff]
      simp only [pure, Except.pure, reduceCtorEq, and_false, exists_false, or_false]
      rfl

theorem fault_resolution_eq_some_iff {bindings : List Binding} :
    (reading.resolution domain signature bindings).fault = some fault ↔
      domain.preconditionTuples (Text.lowercase signature.operator) = .error fault ∨
      ∃ tuples name, domain.preconditions.find? signature.entryKey = some tuples ∧
        firstUndeclared? domain tuples = some name ∧ fault = domain.undeclared name := by
  have operator : (reading.draft signature bindings).dispatch.name = signature.operator := by
    rw [draft, (foldl_addInput_kept _ _).2.2.2]
    rfl
  rw [resolution, PlanGraph.fault_resolve_eq_some_iff, operator]
  simp only [Domain.preconditionTuples_eq_ok_iff]
  rfl

theorem fault_resolution_eq_none_iff {bindings : List Binding} :
    (reading.resolution domain signature bindings).fault = none ↔
      ∃ tuples, domain.preconditions.find? signature.entryKey = some tuples ∧
        firstUndeclared? domain tuples = none := by
  have operator : (reading.draft signature bindings).dispatch.name = signature.operator := by
    rw [draft, (foldl_addInput_kept _ _).2.2.2]
    rfl
  rw [resolution, PlanGraph.fault_resolve_eq_none_iff, operator]
  simp only [Domain.preconditionTuples_eq_ok_iff]
  rfl

theorem inconsistent_of_act {line : Nat}
    (fails : reading.act domain line signature = .error fault) :
    Inconsistent domain reading.gating signature fault := by
  rcases act_eq_error_iff.mp fails with
    undeclared | ⟨bindings, declared, unresolved | ⟨resolved, value, fact, gated, unobserved⟩⟩
  · rcases parameters_eq_error_iff.mp undeclared with unknown | ⟨labels, found, many, rfl⟩
    · obtain ⟨absent, rfl⟩ := Domain.operatorLabels_eq_error_iff.mp unknown
      exact .operator absent (lists_sortedNames _)
    · exact .arguments found many
  · have accepts := exists_parameters_iff.mp ⟨bindings, declared⟩
    rcases fault_resolution_eq_some_iff.mp unresolved with missing | ⟨tuples, name, found, first, rfl⟩
    · obtain ⟨absent, rfl⟩ := Domain.preconditionTuples_eq_error_iff.mp missing
      exact .entry accepts absent (lists_sortedNames _)
    · exact .precondition accepts found first (lists_sortedNames _)
  · have accepts := exists_parameters_iff.mp ⟨bindings, declared⟩
    obtain ⟨tuples, found, none⟩ := fault_resolution_eq_none_iff.mp resolved
    obtain ⟨undeclared, rfl⟩ := observationCondition_eq_error_iff.mp unobserved
    exact .outcome accepts found none gated undeclared (lists_sortedNames _)

theorem act_eq_error_of_inconsistent {line : Nat}
    (inconsistent : Inconsistent domain reading.gating signature fault) :
    reading.act domain line signature = .error fault := by
  rw [act_eq_error_iff]
  cases inconsistent with
  | operator absent lists =>
      obtain rfl := lists.eq (lists_sortedNames _)
      exact Or.inl (parameters_eq_error_iff.mpr
        (Or.inl (Domain.operatorLabels_eq_error_iff.mpr ⟨absent, rfl⟩)))
  | arguments found many =>
      exact Or.inl (parameters_eq_error_iff.mpr (Or.inr ⟨_, found, many, rfl⟩))
  | entry accepts absent lists =>
      obtain rfl := lists.eq (lists_sortedNames _)
      obtain ⟨bindings, declared⟩ := exists_parameters_iff.mpr accepts
      exact Or.inr ⟨bindings, declared, Or.inl (fault_resolution_eq_some_iff.mpr
        (Or.inl (Domain.preconditionTuples_eq_error_iff.mpr ⟨absent, rfl⟩)))⟩
  | precondition accepts found first lists =>
      obtain rfl := lists.eq (lists_sortedNames _)
      obtain ⟨bindings, declared⟩ := exists_parameters_iff.mpr accepts
      exact Or.inr ⟨bindings, declared, Or.inl (fault_resolution_eq_some_iff.mpr
        (Or.inr ⟨_, _, found, first, rfl⟩))⟩
  | outcome accepts found none gated undeclared lists =>
      obtain rfl := lists.eq (lists_sortedNames _)
      obtain ⟨bindings, declared⟩ := exists_parameters_iff.mpr accepts
      exact Or.inr ⟨bindings, declared, Or.inr
        ⟨fault_resolution_eq_none_iff.mpr ⟨_, found, none⟩, _, _, gated,
          observationCondition_eq_error_iff.mpr ⟨undeclared, rfl⟩⟩⟩

end Reading

def Misfits (domain : Domain) (before : List TraceLine) (line : TraceLine) (fault : PlanFault) :
    Prop :=
  ∃ signature, line.token? = some (.action signature) ∧
    Inconsistent domain (gatingBehind before) signature fault

namespace Reading

variable {domain : Domain} {reading : Reading} {fault : PlanFault}

theorem step_eq_error_iff {line : TraceLine} :
    reading.step domain line = .error fault ↔
      ∃ signature, line.token? = some (.action signature) ∧
        Inconsistent domain reading.gating signature fault := by
  have token : (tokenText? line.text).bind Token.ofText? = line.token? := rfl
  unfold step
  dsimp only
  rw [token]
  cases line.token? with
  | none => simp
  | some token =>
      cases token with
      | action signature =>
          simp only [Option.some.injEq, Token.action.injEq, exists_eq_left']
          exact ⟨inconsistent_of_act, act_eq_error_of_inconsistent⟩
      | _ => simp

theorem foldlM_eq_error_iff {lines : List TraceLine} :
    lines.foldlM (step domain) reading = .error fault ↔
      ∃ before line after middle, lines = before ++ line :: after ∧
        before.foldlM (step domain) reading = .ok middle ∧
        middle.step domain line = .error fault := by
  constructor
  · intro fails
    induction lines generalizing reading with
    | nil => cases fails
    | cons line lines ih =>
        rw [List.foldlM_cons, except_bind_eq_error_iff] at fails
        rcases fails with here | ⟨next, step, later⟩
        · exact ⟨[], line, lines, reading, rfl, rfl, here⟩
        · obtain ⟨before, failing, after, middle, rfl, run, fails⟩ := ih later
          refine ⟨line :: before, failing, after, middle, rfl, ?_, fails⟩
          rw [List.foldlM_cons, except_bind_eq_ok]
          exact ⟨next, step, run⟩
  · rintro ⟨before, line, after, middle, rfl, run, fails⟩
    rw [List.foldlM_append, except_bind_eq_error_iff]
    refine Or.inr ⟨middle, run, ?_⟩
    rw [List.foldlM_cons, except_bind_eq_error_iff]
    exact Or.inl fails

/-- Up to a line that is reached, the lines before it tell how it is gated. -/
theorem misfits_iff_step {freeId : Nat} {before : List TraceLine} {line : TraceLine}
    (run : before.foldlM (step domain) { nextId := freeId } = .ok reading) :
    Misfits domain before line fault ↔ reading.step domain line = .error fault := by
  rw [step_eq_error_iff, gating_of_foldlM run]
  rfl

theorem not_misfits_of_foldlM {freeId : Nat} {before after : List TraceLine} {line : TraceLine}
    (run : (before ++ line :: after).foldlM (step domain) { nextId := freeId } = .ok reading) :
    ¬ Misfits domain before line fault := by
  obtain ⟨reached, middle, first, step, -⟩ := foldlM_split run
  rw [misfits_iff_step first, step]
  simp

end Reading

/-- The first line of the plan block that does not fit the domain has the given fault. -/
def FirstMisfit (domain : Domain) (trace : String) (fault : PlanFault) : Prop :=
  ∃ before line after, planBlock? trace = some (before ++ line :: after) ∧
    Misfits domain before line fault ∧
    ∀ earlier other later sooner, before = earlier ++ other :: later →
      ¬ Misfits domain earlier other sooner

namespace Plan

variable {domain : Domain} {trace : String} {freeId : Nat} {fault : PlanFault}

theorem ofTrace_eq_error_iff_firstMisfit :
    Plan.ofTrace domain trace freeId = .error fault ↔ FirstMisfit domain trace fault := by
  rw [ofTrace_eq_error_iff_foldlM]
  constructor
  · rintro ⟨block, announced, fails⟩
    obtain ⟨before, line, after, middle, rfl, run, fails⟩ := Reading.foldlM_eq_error_iff.mp fails
    refine ⟨before, line, after, announced, (Reading.misfits_iff_step run).mpr fails, ?_⟩
    intro earlier other later sooner split
    rw [split] at run
    exact Reading.not_misfits_of_foldlM run
  · rintro ⟨before, line, after, announced, misfits, first⟩
    refine ⟨_, announced, ?_⟩
    rw [Reading.foldlM_eq_error_iff]
    cases run : before.foldlM (Reading.step domain) { nextId := freeId } with
    | ok reading =>
        exact ⟨before, line, after, reading, rfl, run, (Reading.misfits_iff_step run).mp misfits⟩
    | error sooner =>
        obtain ⟨earlier, other, later, middle, split, reached, fails⟩ :=
          Reading.foldlM_eq_error_iff.mp run
        exact absurd ((Reading.misfits_iff_step reached).mpr fails)
          (first earlier other later sooner split)

end Plan

theorem PlanGraph.reset_eq (graph : PlanGraph) : graph.reset = ∅ := rfl

theorem Session.reset_eq (session : Session) : session.reset = {} := by
  rw [reset, PlanGraph.reset_eq]

/-- A trace is answered with what there is to say of its plan, which is all that the session holds
afterwards, or with the fault that stopped the reading; then the session holds nothing. -/
theorem Session.prepare_eq (session : Session) (domain : Domain) (trace : String) (freeId : Nat) :
    session.prepare domain trace freeId =
      match Plan.ofTrace domain trace freeId with
      | .ok plan => (.ok plan.report, { graph := plan.graph })
      | .error fault => (.error fault, {}) := by
  rw [prepare, reset_eq, Plan.ofTrace]
  cases announced : planBlock? trace with
  | none => rfl
  | some block =>
      dsimp only
      cases block.foldlM (Reading.step domain) { nextId := freeId } <;> rfl

theorem Session.prepare_eq_error_iff {session : Session} {domain : Domain} {trace : String}
    {freeId : Nat} {fault : PlanFault} :
    (session.prepare domain trace freeId).1 = .error fault ↔
      Plan.ofTrace domain trace freeId = .error fault := by
  rw [Session.prepare_eq]
  cases Plan.ofTrace domain trace freeId <;> simp

theorem Session.prepare_fails_iff (session : Session) (domain : Domain) (trace : String)
    (freeId : Nat) :
    (∀ fault, (session.prepare domain trace freeId).1 = .error fault ↔
      FirstMisfit domain trace fault) ∧
    ((∃ fault, (session.prepare domain trace freeId).1 = .error fault) ↔
      ∃ before line after fault, planBlock? trace = some (before ++ line :: after) ∧
        Misfits domain before line fault) ∧
    ∀ fault, (session.prepare domain trace freeId).1 = .error fault →
      (session.prepare domain trace freeId).2.graph = ∅ := by
  simp only [prepare_eq_error_iff]
  refine ⟨fun fault => Plan.ofTrace_eq_error_iff_firstMisfit, ?_, ?_⟩
  · constructor
    · rintro ⟨fault, fails⟩
      obtain ⟨before, line, after, announced, misfits, -⟩ :=
        Plan.ofTrace_eq_error_iff_firstMisfit.mp fails
      exact ⟨before, line, after, fault, announced, misfits⟩
    · rintro ⟨before, line, after, fault, announced, misfits⟩
      cases read : Plan.ofTrace domain trace freeId with
      | error sooner => exact ⟨sooner, rfl⟩
      | ok plan =>
          obtain ⟨reading, run, -⟩ := Plan.foldlM_of_ofTrace read announced
          exact absurd misfits (Reading.not_misfits_of_foldlM run)
  · intro fault fails
    rw [prepare_eq, fails]

end ContingentPlan
