import ContingentPlan.Proofs.Condition
import ContingentPlan.Proofs.Domain
import ContingentPlan.Proofs.Graph.Registry
import ContingentPlan.Proofs.Reading.Action
import ContingentPlan.Proofs.Text.Pieces

/-!
What the preconditions of a node come to. Each tuple of the operator has one ground form, read off the
tables of the domain and the parameters of the node. The node gets the ground forms in order, each
requirement once, and waits on the edges that the graph gives to their signatures.
-/

namespace ContingentPlan

inductive Unmarked (domain : Domain) : String → String → Prop
  | marker : Unmarked domain "resolve-axioms" "resolve-axioms"
  | plain {name : String} : (∀ rest, name ≠ "r" ++ rest) → Unmarked domain name name
  | kept {rest : String} : "r" ++ rest ≠ "resolve-axioms" → domain.declares ("r" ++ rest) = true →
      domain.declares rest = false → Unmarked domain ("r" ++ rest) ("r" ++ rest)
  | stripped {rest : String} : "r" ++ rest ≠ "resolve-axioms" →
      (domain.declares ("r" ++ rest) = false ∨ domain.declares rest = true) →
      Unmarked domain ("r" ++ rest) rest

inductive Bound (parameters : List Binding) (argument : String) : String → Prop
  | parameter {before after : List Binding} {binding : Binding} :
      parameters = before ++ binding :: after →
      Text.lowercase binding.key = Text.lowercase argument →
      (∀ later ∈ after, Text.lowercase later.key ≠ Text.lowercase argument) →
      Bound parameters argument binding.value
  | constant :
      (∀ binding ∈ parameters, Text.lowercase binding.key ≠ Text.lowercase argument) →
      Bound parameters argument (Text.lowercase argument)

/-- The ground form of a tuple about the given parameters. -/
structure GroundForm (domain : Domain) (parameters : List Binding) (head : String)
    (arguments : List String) (condition : Condition) : Prop where
  name : Unmarked domain (Text.lowercase head) condition.name
  labels : domain.predicates.find? condition.name = some (condition.values.map Binding.key) ∨
    domain.predicates.find? condition.name = none ∧
      domain.functions.find? condition.name = some (condition.values.map Binding.key)
  given : ∀ (position : Nat) (binding : Binding) (argument : String),
    condition.values[position]? = some binding → arguments[position]? = some argument →
    Bound parameters argument binding.value
  missing : ∀ (position : Nat) (binding : Binding), condition.values[position]? = some binding →
    arguments[position]? = none → binding.value = ""
  positive : condition.negative = false
  kind : condition.kind = .function ↔
    domain.isFunction (Text.lowercase head) = true ∨ domain.isFunction condition.name = true

section Grounding

variable {domain : Domain} {parameters : List Binding}

theorem unmarked_unmarkedAttribute (domain : Domain) (name : String) :
    Unmarked domain name (unmarkedAttribute domain name) := by
  unfold unmarkedAttribute
  split
  · rename_i marker
    subst marker
    exact .marker
  · rename_i notMarker
    cases opened : Text.afterOpening? "r" name with
    | none =>
        apply Unmarked.plain
        intro rest same
        rw [Text.afterOpening?_eq_some_iff.mpr same] at opened
        cases opened
    | some rest =>
        obtain rfl := Text.afterOpening?_eq_some_iff.mp opened
        dsimp only
        split
        · rename_i declared
          rw [Bool.and_eq_true, Bool.not_eq_true'] at declared
          exact .kept notMarker declared.1 declared.2
        · rename_i undeclared
          apply Unmarked.stripped notMarker
          cases marked : domain.declares ("r" ++ rest) with
          | false => exact Or.inl rfl
          | true => simpa [marked] using undeclared

theorem Unmarked.eq {name other : String} (unmarked : Unmarked domain name other) :
    unmarkedAttribute domain name = other := by
  unfold unmarkedAttribute
  cases unmarked with
  | marker => rfl
  | plain unmarked =>
      split
      · rfl
      · cases opened : Text.afterOpening? "r" name with
        | none => rfl
        | some rest => exact absurd (Text.afterOpening?_eq_some_iff.mp opened) (unmarked rest)
  | kept notMarker declared undeclared =>
      rw [if_neg notMarker, Text.afterOpening?_eq_some_iff.mpr rfl]
      simp [declared, undeclared]
  | stripped notMarker decided =>
      rw [if_neg notMarker, Text.afterOpening?_eq_some_iff.mpr rfl]
      rcases decided with undeclared | declared
      · simp [undeclared]
      · simp [declared]

theorem bound_groundArgument (parameters : List Binding) (argument : String) :
    Bound parameters argument (groundArgument parameters argument) := by
  unfold groundArgument
  dsimp only
  split
  · rename_i binding found
    obtain ⟨same, after, before, split, others⟩ := List.find?_eq_some_iff_append.mp found
    have order : parameters = before.reverse ++ binding :: after.reverse := by
      rw [← List.reverse_inj, split]
      simp
    refine .parameter order (by simpa using same) ?_
    intro later member
    simpa using others later (List.mem_reverse.mp member)
  · rename_i absent
    apply Bound.constant
    intro binding member
    simpa using List.find?_eq_none.mp absent binding (List.mem_reverse.mpr member)

theorem Bound.eq {argument value : String} (bound : Bound parameters argument value) :
    groundArgument parameters argument = value := by
  unfold groundArgument
  dsimp only
  cases bound with
  | @parameter before after binding order same others =>
      have found : parameters.reverse.find? (fun other =>
          Text.lowercase other.key == Text.lowercase argument) = some binding := by
        rw [List.find?_eq_some_iff_append]
        refine ⟨by simpa using same, after.reverse, before.reverse, by simp [order], ?_⟩
        intro later member
        simpa using others later (List.mem_reverse.mp member)
      rw [found]
  | constant absent =>
      have none : parameters.reverse.find? (fun other =>
          Text.lowercase other.key == Text.lowercase argument) = none := by
        rw [List.find?_eq_none]
        intro binding member
        simpa using absent binding (List.mem_reverse.mp member)
      rw [none]

theorem getElem?_bindLabels (labels values : List String) (position : Nat) :
    (bindLabels labels values)[position]? =
      labels[position]?.map fun label => { key := label, value := values[position]?.getD "" } := by
  induction labels generalizing values position with
  | nil => simp [bindLabels]
  | cons label labels ih =>
      cases values with
      | nil => cases position <;> simp [bindLabels, ih]
      | cons value values => cases position <;> simp [bindLabels, ih]

variable {head : String} {arguments : List String} {condition : Condition}

theorem groundForm_of_groundTuple
    (grounded : groundTuple domain parameters head arguments = .ok condition) :
    GroundForm domain parameters head arguments condition := by
  unfold groundTuple at grounded
  dsimp only at grounded
  split at grounded
  · cases grounded
  · rename_i labels declared
    obtain rfl := Except.ok.inj grounded
    constructor
    · exact unmarked_unmarkedAttribute domain _
    · rw [map_key_bindLabels]
      exact Domain.attributeLabels_eq_ok_iff.mp declared
    · intro position binding argument found stands
      rw [getElem?_bindLabels, Option.map_eq_some_iff] at found
      obtain ⟨label, -, rfl⟩ := found
      simpa [stands] using bound_groundArgument parameters argument
    · intro position binding found short
      rw [getElem?_bindLabels, Option.map_eq_some_iff] at found
      obtain ⟨label, -, rfl⟩ := found
      simp [short]
    · rfl
    · rw [← Bool.or_eq_true]
      dsimp only
      split
      · rename_i function
        exact iff_of_true rfl function
      · rename_i notFunction
        exact iff_of_false (by simp) notFunction

namespace GroundForm

theorem values_eq (form : GroundForm domain parameters head arguments condition) :
    bindLabels (condition.values.map Binding.key) (arguments.map (groundArgument parameters)) =
      condition.values := by
  apply List.ext_getElem?
  intro position
  rw [getElem?_bindLabels, List.getElem?_map, List.getElem?_map]
  cases found : condition.values[position]? with
  | none => rfl
  | some binding =>
      cases stands : arguments[position]? with
      | none => simp [← form.missing position binding found stands]
      | some argument => simp [(form.given position binding argument found stands).eq]

theorem kind_eq (form : GroundForm domain parameters head arguments condition) :
    (if domain.isFunction (Text.lowercase head) || domain.isFunction condition.name
      then Knowledge.function else .fact) = condition.kind := by
  have kind := form.kind
  rw [← Bool.or_eq_true] at kind
  split
  · rename_i function
    exact (kind.mpr function).symm
  · rename_i notFunction
    cases stated : condition.kind with
    | fact => rfl
    | function => exact absurd (kind.mp stated) notFunction

theorem groundTuple_eq (form : GroundForm domain parameters head arguments condition) :
    groundTuple domain parameters head arguments = .ok condition := by
  unfold groundTuple
  dsimp only
  rw [form.name.eq, Domain.attributeLabels_eq_ok_iff.mpr form.labels]
  dsimp only
  rw [form.values_eq, form.kind_eq, ← form.positive]

end GroundForm

theorem groundTuple_eq_ok_iff :
    groundTuple domain parameters head arguments = .ok condition ↔
      GroundForm domain parameters head arguments condition :=
  ⟨groundForm_of_groundTuple, GroundForm.groundTuple_eq⟩

end Grounding

def TupleForm (domain : Domain) (parameters : List Binding) : ConditionTuple → Condition → Prop
  | [], _ => False
  | head :: arguments, condition => GroundForm domain parameters head arguments condition

theorem TupleForm.unique {domain : Domain} {parameters : List Binding} {tuple : ConditionTuple}
    {first second : Condition} (one : TupleForm domain parameters tuple first)
    (other : TupleForm domain parameters tuple second) : first = second := by
  cases tuple with
  | nil => exact one.elim
  | cons head arguments =>
      have grounded := groundTuple_eq_ok_iff.mpr one
      rw [groundTuple_eq_ok_iff.mpr other] at grounded
      exact (Except.ok.inj grounded).symm

def GroundForms (domain : Domain) (parameters : List Binding) (tuples : List ConditionTuple)
    (grounded : List Condition) : Prop :=
  List.Forall₂ (TupleForm domain parameters) (tuples.filter (· ≠ [])) grounded

theorem GroundForms.unique {domain : Domain} {parameters : List Binding}
    {tuples : List ConditionTuple} {first second : List Condition}
    (one : GroundForms domain parameters tuples first)
    (other : GroundForms domain parameters tuples second) : first = second := by
  unfold GroundForms at one other
  generalize tuples.filter (· ≠ []) = stated at one other
  induction one generalizing second with
  | nil =>
      cases other
      rfl
  | cons form _ ih =>
      cases other with
      | cons formToo rest => rw [form.unique formToo, ih rest]

/-- The conditions without those that state a requirement again. -/
def distinctRequirements : List Condition → List Condition
  | [] => []
  | condition :: conditions =>
      condition :: (distinctRequirements conditions).filter (¬ condition.SameRequirement ·)

namespace Condition.SameRequirement

variable {first second third : Condition}

theorem refl (condition : Condition) : condition.SameRequirement condition := ⟨rfl, rfl⟩

theorem symm (same : first.SameRequirement second) : second.SameRequirement first :=
  ⟨same.1.symm, same.2.symm⟩

theorem trans (same : first.SameRequirement second) (again : second.SameRequirement third) :
    first.SameRequirement third :=
  ⟨same.1.trans again.1, same.2.trans again.2⟩

end Condition.SameRequirement

theorem filter_distinctRequirements {conditions : List Condition} {condition : Condition}
    (stated : condition ∈ conditions) :
    ((distinctRequirements conditions).filter (condition.SameRequirement ·)).length = 1 := by
  induction conditions with
  | nil => cases stated
  | cons first rest ih =>
      rw [distinctRequirements, List.filter_cons, List.filter_filter]
      by_cases same : condition.SameRequirement first
      · have none : (distinctRequirements rest).filter (fun other =>
            decide (condition.SameRequirement other) &&
              decide (¬ first.SameRequirement other)) = [] := by
          rw [List.filter_eq_nil_iff]
          intro other _
          rw [Bool.and_eq_true, decide_eq_true_eq, decide_eq_true_eq, not_and, not_not]
          exact fun again => same.symm.trans again
        rw [if_pos (decide_eq_true same), none]
        rfl
      · have member : condition ∈ rest := by
          rcases List.mem_cons.mp stated with here | later
          · exact absurd (here ▸ Condition.SameRequirement.refl condition) same
          · exact later
        have others : (distinctRequirements rest).filter (fun other =>
            decide (condition.SameRequirement other) && decide (¬ first.SameRequirement other)) =
            (distinctRequirements rest).filter (condition.SameRequirement ·) := by
          apply List.filter_congr
          intro other _
          by_cases again : condition.SameRequirement other
          · have apart : ¬ first.SameRequirement other := fun equal => same (again.trans equal.symm)
            simp [again, apart]
          · simp [again]
        rw [if_neg (by simpa using same), others, ih member]

namespace Resolution

variable {domain : Domain} {resolution : Resolution}

def Lacks (resolution : Resolution) (condition : Condition) : Prop :=
  ∀ stated ∈ resolution.requirements, ¬ stated.condition.SameRequirement condition

instance (resolution : Resolution) (condition : Condition) : Decidable (resolution.Lacks condition) :=
  inferInstanceAs (Decidable (∀ stated ∈ resolution.requirements, _))

theorem require_eq (resolution : Resolution) (condition : Condition) :
    resolution.require condition =
      if resolution.Lacks condition then
        { resolution with
          node := resolution.node.addInput
            (resolution.graph.nameFor condition.signature .condition)
          graph := (resolution.graph.registerCondition condition.signature resolution.node.id
            condition).2
          requirements := resolution.requirements ++
            [{ edge := resolution.graph.nameFor condition.signature .condition, condition }] }
      else resolution := by
  unfold require
  by_cases lacks : resolution.Lacks condition
  · have unstated : resolution.requirements.any (fun stated =>
        decide (stated.condition.SameRequirement condition)) = false := by
      rw [List.any_eq_false]
      intro stated member
      simpa using lacks stated member
    rw [if_pos lacks, unstated]
    rfl
  · have stated : resolution.requirements.any (fun stated =>
        decide (stated.condition.SameRequirement condition)) = true := by
      simpa [Lacks] using lacks
    rw [if_neg lacks, stated]
    rfl

theorem addTuples_eq_foldl {tuples : List ConditionTuple}
    (complete : (resolution.addTuples domain tuples).fault = none) :
    ∃ grounded, GroundForms domain resolution.node.dispatch.parameters tuples grounded ∧
      resolution.addTuples domain tuples = grounded.foldl require resolution := by
  induction tuples generalizing resolution with
  | nil => exact ⟨[], .nil, rfl⟩
  | cons tuple tuples ih =>
      cases tuple with
      | nil =>
          obtain ⟨grounded, forms, same⟩ := @ih resolution complete
          exact ⟨grounded, by simpa [GroundForms] using forms, same⟩
      | cons head arguments =>
          rw [addTuples] at complete ⊢
          cases found : groundTuple domain resolution.node.dispatch.parameters head arguments with
          | error fault => simp [found] at complete
          | ok condition =>
              rw [found] at complete
              obtain ⟨grounded, forms, same⟩ := ih complete
              rw [resolution.dispatch_require] at forms
              refine ⟨condition :: grounded, ?_, same⟩
              have form : TupleForm domain resolution.node.dispatch.parameters (head :: arguments)
                  condition := groundTuple_eq_ok_iff.mp found
              simpa [GroundForms] using List.Forall₂.cons form forms

theorem lacks_require {condition other : Condition} :
    (resolution.require condition).Lacks other ↔
      resolution.Lacks other ∧ ¬ condition.SameRequirement other := by
  rw [require_eq]
  split
  · simp only [Lacks, mem_append_singleton]
    constructor
    · intro lacks
      exact ⟨fun stated member => lacks stated (Or.inl member), lacks _ (Or.inr rfl)⟩
    · rintro ⟨older, own⟩ stated (member | rfl)
      · exact older stated member
      · exact own
  · rename_i stated
    refine ⟨fun lacks => ⟨lacks, ?_⟩, And.left⟩
    intro same
    apply stated
    exact fun requirement member again => lacks requirement member (again.trans same)

theorem conditions_foldl_require (conditions : List Condition) :
    (conditions.foldl require resolution).requirements.map Requirement.condition =
      resolution.requirements.map Requirement.condition ++
        (distinctRequirements conditions).filter (resolution.Lacks ·) := by
  induction conditions generalizing resolution with
  | nil => simp [distinctRequirements]
  | cons condition conditions ih =>
      rw [List.foldl_cons, ih, distinctRequirements, List.filter_cons, List.filter_filter]
      have rest : (distinctRequirements conditions).filter (fun other =>
            decide ((resolution.require condition).Lacks other)) =
          (distinctRequirements conditions).filter (fun other =>
            decide (resolution.Lacks other) && decide (¬ condition.SameRequirement other)) := by
        apply List.filter_congr
        intro other _
        simp [lacks_require]
      rw [rest, require_eq]
      split
      · rename_i lacks
        simp [lacks]
      · rename_i stated
        simp [stated]

/-- What the requirements have done to the node and the graph that the resolution began with. -/
structure Attaches (graph : PlanGraph) (node : Node) (resolution : Resolution) : Prop where
  answers : ∀ name, resolution.graph.nameFor name .condition = graph.nameFor name .condition
  edges : ∀ requirement ∈ resolution.requirements,
    requirement.edge = graph.nameFor requirement.condition.signature .condition
  fed : ∀ requirement ∈ resolution.requirements,
    node.id ∈ resolution.graph.sinksAt requirement.edge
  inputs : resolution.node = (resolution.requirements.map Requirement.edge).foldl Node.addInput node
  stored : resolution.graph = resolution.requirements.foldl (fun graph requirement =>
    (graph.registerCondition requirement.condition.signature node.id requirement.condition).2) graph

namespace Attaches

variable {graph : PlanGraph} {node : Node}

theorem start (graph : PlanGraph) (node : Node) : Attaches graph node { node, graph } where
  answers := fun _ => rfl
  edges := by simp
  fed := by simp
  inputs := rfl
  stored := rfl

theorem require (attaches : Attaches graph node resolution) (condition : Condition) :
    Attaches graph node (resolution.require condition) := by
  rw [require_eq]
  split
  · have id : resolution.node.id = node.id := by
      rw [attaches.inputs]
      exact (Reading.foldl_addInput_kept _ _).1
    have sinks := resolution.graph.sinksAt_registerCondition condition.signature
    constructor
    · intro name
      rw [← attaches.answers name]
      exact PlanGraph.nameFor_congr (PlanGraph.admits_registerCondition _ _ _ _) name
    · intro requirement member
      rcases mem_append_singleton.mp member with older | rfl
      · exact attaches.edges requirement older
      · exact attaches.answers condition.signature
    · intro requirement member
      rw [id, sinks]
      rcases mem_append_singleton.mp member with older | rfl
      · split
        · exact Edge.mem_extendSinks.mpr (Or.inl rfl)
        · exact attaches.fed requirement older
      · rw [if_pos rfl]
        exact Edge.mem_extendSinks.mpr (Or.inl rfl)
    · simp [attaches.inputs]
    · rw [List.foldl_append, ← attaches.stored, id]
      rfl
  · exact attaches

theorem foldl_require (attaches : Attaches graph node resolution) (conditions : List Condition) :
    Attaches graph node (conditions.foldl Resolution.require resolution) := by
  induction conditions generalizing resolution with
  | nil => exact attaches
  | cons condition conditions ih => exact ih (attaches.require condition)

end Attaches

end Resolution

/-- The requirements of a node are the ground forms of its preconditions, each one once. Their edges are
those that the graph gives to their signatures; they lead into the node and are its last inputs. -/
structure Resolves (graph : PlanGraph) (node : Node) (grounded : List Condition)
    (resolution : Resolution) : Prop where
  conditions : resolution.requirements.map Requirement.condition = distinctRequirements grounded
  once : ∀ condition ∈ grounded,
    ((resolution.requirements.map Requirement.condition).filter
      (condition.SameRequirement ·)).length = 1
  edges : ∀ requirement ∈ resolution.requirements,
    requirement.edge = graph.nameFor requirement.condition.signature .condition
  leads : ∀ requirement ∈ resolution.requirements, ∃ edge,
    resolution.graph.edge? requirement.edge = some edge ∧ edge.kind = .condition ∧
      node.id ∈ edge.sinks
  inputs : resolution.node = (resolution.requirements.map Requirement.edge).foldl Node.addInput node
  stored : resolution.graph = resolution.requirements.foldl (fun graph requirement =>
    (graph.registerCondition requirement.condition.signature node.id requirement.condition).2) graph

theorem PlanGraph.resolves_of_resolve {graph : PlanGraph} {domain : Domain} {node : Node}
    (complete : (graph.resolve domain node).fault = none) :
    ∃ tuples grounded,
      domain.preconditions.find? (Text.lowercase (Text.lowercase node.dispatch.name)) = some tuples ∧
      GroundForms domain node.dispatch.parameters tuples grounded ∧
      (∀ other, GroundForms domain node.dispatch.parameters tuples other → other = grounded) ∧
      Resolves graph node grounded (graph.resolve domain node) := by
  unfold resolve at complete ⊢
  cases found : domain.preconditionTuples (Text.lowercase node.dispatch.name) with
  | error fault => simp [found] at complete
  | ok tuples =>
      rw [found] at complete
      obtain ⟨grounded, forms, same⟩ := Resolution.addTuples_eq_foldl complete
      have attaches := (Resolution.Attaches.start graph node).foldl_require grounded
      have conditions := @Resolution.conditions_foldl_require { node, graph } grounded
      have lacking : (distinctRequirements grounded).filter
          (({ node, graph } : Resolution).Lacks ·) = distinctRequirements grounded := by
        simp [Resolution.Lacks]
      rw [lacking, List.map_nil, List.nil_append] at conditions
      refine ⟨tuples, grounded, Domain.preconditionTuples_eq_ok_iff.mp found, forms,
        fun _ other => other.unique forms, ?_⟩
      dsimp only
      rw [same]
      constructor
      · exact conditions
      · rw [conditions]
        exact fun _ => filter_distinctRequirements
      · exact attaches.edges
      · intro requirement member
        obtain ⟨edge, held, sink⟩ := PlanGraph.mem_sinksAt_iff.mp (attaches.fed requirement member)
        refine ⟨edge, held, ?_, sink⟩
        have admitted := nameFor_admits (grounded.foldl Resolution.require { node, graph }).graph
          requirement.condition.signature .condition
        rw [attaches.answers, ← attaches.edges requirement member] at admitted
        exact kind_of_admits admitted held
      · exact attaches.inputs
      · exact attaches.stored

/-- The first and the third tuple ground alike, the marked name `road` is the only declared one, and the
second tuple is short. -/
def Domain.depot : Domain :=
  let declared : Domain := ((({} : Domain).addPredicate "at" ["r", "l"]).addPredicate "road"
    ["from", "to"]).addFunction "load" ["r"]
  (((declared.addPrecondition "move" ["rat", "R", "from"]).addPrecondition "move"
    ["road", "from"]).addPrecondition "move" ["AT", "r", "from"]).addPrecondition "move" ["rload", "Cart"]

def depotNode : Node where
  id := 4
  name := "Move"
  input := [{ edge := "e3" }]
  dispatch :=
    { actionId := 4
      name := "Move"
      parameters := [⟨"r", "cart"⟩, ⟨"From", "a"⟩, ⟨"FROM", "b"⟩] }

theorem depot_resolves :
    ((∅ : PlanGraph).resolve .depot depotNode).fault = none ∧
    ((∅ : PlanGraph).resolve .depot depotNode).requirements =
      [⟨"at cart b", ⟨.fact, "at", false, [⟨"r", "cart"⟩, ⟨"l", "b"⟩]⟩⟩,
        ⟨"road b", ⟨.fact, "road", false, [⟨"from", "b"⟩, ⟨"to", ""⟩]⟩⟩,
        ⟨"load cart", ⟨.function, "load", false, [⟨"r", "cart"⟩]⟩⟩] ∧
    ∃ tuples grounded, tuples.length = 4 ∧
      GroundForms .depot depotNode.dispatch.parameters tuples grounded ∧
      distinctRequirements grounded =
        ((∅ : PlanGraph).resolve .depot depotNode).requirements.map Requirement.condition := by
  have complete : ((∅ : PlanGraph).resolve .depot depotNode).fault = none := by decide +kernel
  obtain ⟨tuples, grounded, found, forms, -, resolves⟩ := PlanGraph.resolves_of_resolve complete
  have length : (Domain.depot.preconditions.find?
      (Text.lowercase (Text.lowercase depotNode.dispatch.name))).map List.length = some 4 := by
    decide +kernel
  rw [found] at length
  exact ⟨complete, by decide +kernel, tuples, grounded, Option.some.inj length, forms,
    resolves.conditions.symm⟩

end ContingentPlan
