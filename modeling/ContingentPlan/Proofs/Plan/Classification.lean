import ContingentPlan.Proofs.Plan.Provenance

/-!
Which records of a plan are about functions. A precondition is classified by its head as it is written and
by the attribute it is about, so the kind is told by the attribute alone unless only the marked name is a
function. An outcome is classified as a fact where its attribute is no function.
-/

namespace ContingentPlan

section Grounding

variable {domain : Domain} {condition : Condition}

theorem Unmarked.eq_or_marked {raw name : String} (unmarked : Unmarked domain raw name) :
    raw = name ∨ raw = "r" ++ name := by
  cases unmarked with
  | marker => exact Or.inl rfl
  | plain _ => exact Or.inl rfl
  | kept _ _ _ => exact Or.inl rfl
  | stripped _ _ => exact Or.inr rfl

theorem kind_observationCondition {fact : String} {value : Bool}
    (observed : observationCondition domain fact value = .ok condition) : condition.kind = .fact := by
  unfold observationCondition at observed
  dsimp only at observed
  split at observed
  · cases observed
  · cases observed
    rfl

theorem kind_groundTuple_iff {parameters : List Binding} {head : String} {arguments : List String}
    (grounded : groundTuple domain parameters head arguments = .ok condition)
    (marked : domain.isFunction ("r" ++ condition.name) = true →
      domain.isFunction condition.name = true) :
    condition.kind = .function ↔ domain.isFunction condition.name = true := by
  have form := groundTuple_eq_ok_iff.mp grounded
  rw [form.kind]
  refine ⟨?_, Or.inr⟩
  rintro (written | stripped)
  · rcases form.name.eq_or_marked with same | prefixed
    · rwa [same] at written
    · rw [prefixed] at written
      exact marked written
  · exact stripped

end Grounding

inductive Classified (domain : Domain) (block : List TraceLine) (graph : PlanGraph) :
    String → Condition → Prop
  | tuple {node : Node} {tuples : List ConditionTuple} {head : String} {arguments : List String}
      {record : Condition} : node ∈ graph.nodes →
      domain.preconditionTuples (Text.lowercase node.dispatch.name) = .ok tuples →
      head :: arguments ∈ tuples → Unmarked domain (Text.lowercase head) record.name →
      (record.kind = .function ↔
        domain.isFunction (Text.lowercase head) = true ∨ domain.isFunction record.name = true) →
      Classified domain block graph (graph.nameFor record.signature .condition) record
  | outcome {line : TraceLine} {value : Bool} {fact : String} {record : Condition} :
      line ∈ block → line.Observes fact →
      (domain.isFunction record.name = false → record.kind = .fact) →
      Classified domain block graph (Reading.outcomeEdge value fact) record

/-- The name of an attribute tells the kind of a record: the marked name is a function only if the name is
one, and a function is not observed under the edge of the record. -/
structure Telling (domain : Domain) (block : List TraceLine) (edge name : String) : Prop where
  marked : domain.isFunction ("r" ++ name) = true → domain.isFunction name = true
  unobserved : domain.isFunction name = true → ∀ line ∈ block, ∀ fact, line.Observes fact →
    ∀ value, edge ≠ Reading.outcomeEdge value fact

namespace Origin

variable {domain : Domain} {block : List TraceLine} {graph : PlanGraph} {edge : String}
  {record : Condition}

theorem classified (origin : Origin domain block graph edge record) :
    Classified domain block graph edge record := by
  cases origin with
  | tuple among tabled stated grounded =>
      have form := groundTuple_eq_ok_iff.mp grounded
      exact .tuple among tabled stated form.name form.kind
  | outcome own observes observed =>
      exact .outcome own observes fun _ => kind_observationCondition observed

theorem kind_iff (origin : Origin domain block graph edge record)
    (telling : Telling domain block edge record.name) :
    record.kind = .function ↔ domain.isFunction record.name = true := by
  cases origin with
  | tuple _ _ _ grounded => exact kind_groundTuple_iff grounded telling.marked
  | @outcome line value fact _ own observes observed =>
      rw [kind_observationCondition observed]
      constructor
      · intro function
        cases function
      · intro function
        exact absurd rfl (telling.unobserved function line own fact observes value)

end Origin

theorem Knowledge.eq_of_function_iff {first second : Knowledge}
    (same : first = .function ↔ second = .function) : first = second := by
  cases first <;> cases second <;> simp_all

/-- Records of one attribute agree, whatever plans they are in, if the plans' domains have the same
functions. -/
theorem Plan.kinds_of_ofTrace {domain : Domain} {trace : String} {freeId : Nat} {plan : Plan}
    (read : Plan.ofTrace domain trace freeId = .ok plan) :
    (∀ edge record, plan.graph.condition? edge = some record →
      Classified domain ((planBlock? trace).getD []) plan.graph edge record) ∧
    (∀ edge record, plan.graph.condition? edge = some record →
      Telling domain ((planBlock? trace).getD []) edge record.name →
      (record.kind = .function ↔ domain.isFunction record.name = true)) ∧
    ∀ otherDomain otherTrace otherId otherPlan,
      Plan.ofTrace otherDomain otherTrace otherId = .ok otherPlan →
      otherDomain.functions = domain.functions →
      ∀ edge record otherEdge other, plan.graph.condition? edge = some record →
        otherPlan.graph.condition? otherEdge = some other → other.name = record.name →
        Telling domain ((planBlock? trace).getD []) edge record.name →
        Telling otherDomain ((planBlock? otherTrace).getD []) otherEdge other.name →
        other.kind = record.kind := by
  refine ⟨fun edge record stored => (origin_of_condition? read stored).classified,
    fun edge record stored => (origin_of_condition? read stored).kind_iff, ?_⟩
  intro otherDomain otherTrace otherId otherPlan readToo functions edge record otherEdge other stored
    storedToo names telling tellingToo
  apply Knowledge.eq_of_function_iff
  rw [(origin_of_condition? readToo storedToo).kind_iff tellingToo,
    (origin_of_condition? read stored).kind_iff telling, Domain.isFunction, Domain.isFunction,
    functions, names]

/-- A marked head that is a function of its own, and a function that is observed and required. -/
def Domain.crane : Domain :=
  ((((((({} : Domain).addPredicate "load" ["r"]).addFunction "rload" ["r"]).addFunction "charge"
    ["r"]).addOperator "lift" ["r"]).addOperator "observe-charge" ["r"]).addPrecondition "lift"
    ["rload", "r"]).addPrecondition "lift" ["charge", "r"]

def Domain.craneTurned : Domain :=
  { Domain.crane with
    preconditions := Domain.crane.preconditions.insert "lift" [["charge", "r"], ["rload", "r"]] }

def craneTrace : String :=
  "\n".intercalate
    ["ff: found legal plan as follows", "0: observe-charge a", "1: lift a", "time spent: 0"]

theorem exists_crane : ∃ plan, Plan.ofTrace .crane craneTrace 0 = .ok plan ∧
    plan.graph.condition? "load a" = some ⟨.function, "load", false, [⟨"r", "a"⟩]⟩ ∧
    plan.graph.condition? "charge a" = some ⟨.function, "charge", false, [⟨"r", "a"⟩]⟩ ∧
    plan.graph.condition? "observe-edge-true-charge a" =
      some ⟨.fact, "charge", false, [⟨"r", "a"⟩]⟩ := by
  have evaluated : ∃ plan ∈ (Plan.ofTrace .crane craneTrace 0).toOption,
      plan.graph.condition? "load a" = some ⟨.function, "load", false, [⟨"r", "a"⟩]⟩ ∧
      plan.graph.condition? "charge a" = some ⟨.function, "charge", false, [⟨"r", "a"⟩]⟩ ∧
      plan.graph.condition? "observe-edge-true-charge a" =
        some ⟨.fact, "charge", false, [⟨"r", "a"⟩]⟩ := by decide +kernel
  obtain ⟨plan, given, records⟩ := evaluated
  exact ⟨plan, mem_toOption given, records⟩

theorem crane_misclassified : ∃ plan, Plan.ofTrace .crane craneTrace 0 = .ok plan ∧
    ¬ (∀ edge record, plan.graph.condition? edge = some record →
      (record.kind = .function ↔ Domain.crane.isFunction record.name = true)) ∧
    ¬ (∀ edge record other another, plan.graph.condition? edge = some record →
      plan.graph.condition? other = some another → another.name = record.name →
      another.kind = record.kind) := by
  obtain ⟨plan, read, load, charge, observed⟩ := exists_crane
  have predicate : Domain.crane.isFunction "load" = false := by decide +kernel
  refine ⟨plan, read, ?_, ?_⟩
  · intro classified
    have function := (classified _ _ load).mp rfl
    rw [predicate] at function
    cases function
  · intro agree
    have same := agree _ _ _ _ charge observed rfl
    cases same

theorem crane_telling (block : List TraceLine) : Telling .crane block "charge a" "charge" where
  marked := by decide +kernel
  unobserved := by
    intro _ line _ fact _ value same
    have heads := congrArg (fun text => text.toList.head?) same
    rw [PlanGraph.head?_outcomeEdge] at heads
    cases heads

theorem crane_kinds : ∃ plan turned record other,
    Plan.ofTrace .crane craneTrace 0 = .ok plan ∧
    Plan.ofTrace .craneTurned craneTrace 0 = .ok turned ∧
    plan.graph.condition? "charge a" = some record ∧
    turned.graph.condition? "charge a" = some other ∧
    Domain.craneTurned.functions = Domain.crane.functions ∧
    (∃ block graph, Classified .crane block graph "charge a" record) ∧
    Telling .crane ((planBlock? craneTrace).getD []) "charge a" record.name ∧
    record.kind = .function ∧ other.kind = record.kind := by
  obtain ⟨plan, read, -, stored, -⟩ := exists_crane
  have evaluated : ∃ turned ∈ (Plan.ofTrace .craneTurned craneTrace 0).toOption,
      turned.graph.condition? "charge a" = some ⟨.function, "charge", false, [⟨"r", "a"⟩]⟩ := by
    decide +kernel
  obtain ⟨turned, given, storedToo⟩ := evaluated
  have readToo := mem_toOption given
  have telling := crane_telling ((planBlock? craneTrace).getD [])
  obtain ⟨classified, told, agree⟩ := Plan.kinds_of_ofTrace read
  have function : Domain.crane.isFunction "charge" = true := by decide +kernel
  exact ⟨plan, turned, _, _, read, readToo, stored, storedToo, rfl,
    ⟨_, _, classified _ _ stored⟩, telling, (told _ _ stored telling).mpr function,
    agree _ _ _ _ readToo rfl _ _ _ _ stored storedToo rfl telling
      ⟨telling.marked, telling.unobserved⟩⟩

end ContingentPlan
