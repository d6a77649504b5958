import ContingentPlan.Proofs.Graph.Registry

/-!
Graphs with other ids. Renumbering adds a shift to every id of a graph and to the ids in the names of
the completion edges. In a graph whose action edges are exactly the edges with a numbered name, every
request gets the name that it asks for, so the operations commute with the renumbering.
-/

namespace ContingentPlan

def numberIn? (name : String) : Option Nat :=
  match name.toList with
  | 'e' :: digits =>
      if Nat.toDigits 10 (Nat.ofDigitChars 10 digits 0) = digits then
        some (Nat.ofDigitChars 10 digits 0)
      else none
  | _ => none

def IsNumbered (name : String) : Prop := ∃ id : Nat, name = s!"e{id}"

theorem toList_numbered (id : Nat) : (s!"e{id}").toList = 'e' :: Nat.toDigits 10 id := by
  simp

theorem numberIn?_eq_some_iff {name : String} {id : Nat} :
    numberIn? name = some id ↔ name = s!"e{id}" := by
  constructor
  · intro found
    unfold numberIn? at found
    split at found
    · rename_i digits letters
      split at found
      · rename_i digitsOf
        rw [Option.some.injEq] at found
        rw [found] at digitsOf
        rw [← String.toList_inj, letters, toList_numbered, digitsOf]
      · cases found
    · cases found
  · rintro rfl
    rw [numberIn?, toList_numbered]
    simp

instance (name : String) : Decidable (IsNumbered name) :=
  decidable_of_iff ((numberIn? name).isSome = true) (by
    rw [Option.isSome_iff_exists]
    exact exists_congr fun id => numberIn?_eq_some_iff)

def renumberedName (shift : Nat) (name : String) : String :=
  match numberIn? name with
  | some id => s!"e{id + shift}"
  | none => name

theorem renumberedName_numbered (shift id : Nat) :
    renumberedName shift s!"e{id}" = s!"e{id + shift}" := by
  rw [renumberedName, numberIn?_eq_some_iff.mpr rfl]

theorem renumberedName_of_not_isNumbered (shift : Nat) {name : String}
    (plain : ¬ IsNumbered name) : renumberedName shift name = name := by
  rw [renumberedName]
  split
  · rename_i id found
    exact absurd ⟨id, numberIn?_eq_some_iff.mp found⟩ plain
  · rfl

theorem isNumbered_renumberedName (shift : Nat) {name : String} :
    IsNumbered (renumberedName shift name) ↔ IsNumbered name := by
  by_cases numbered : IsNumbered name
  · obtain ⟨id, rfl⟩ := numbered
    rw [renumberedName_numbered]
    exact iff_of_true ⟨_, rfl⟩ ⟨_, rfl⟩
  · rw [renumberedName_of_not_isNumbered shift numbered]

theorem numbered_injective {first second : Nat} (same : s!"e{first}" = s!"e{second}") :
    first = second := by
  have letters := congrArg String.toList same
  rw [toList_numbered, toList_numbered, List.cons.injEq] at letters
  exact toDigits_injective letters.2

/-- A numbered name stays numbered and a plain one stays plain, so no two names fall together. -/
theorem renumberedName_injective (shift : Nat) {first second : String}
    (same : renumberedName shift first = renumberedName shift second) : first = second := by
  have kind : IsNumbered first ↔ IsNumbered second := by
    rw [← isNumbered_renumberedName shift, same, isNumbered_renumberedName]
  by_cases numbered : IsNumbered first
  · obtain ⟨other, rfl⟩ := kind.mp numbered
    obtain ⟨id, rfl⟩ := numbered
    rw [renumberedName_numbered, renumberedName_numbered] at same
    have ids := numbered_injective same
    rw [Nat.add_right_cancel ids]
  · have plain : ¬ IsNumbered second := fun other => numbered (kind.mpr other)
    rwa [renumberedName_of_not_isNumbered shift numbered,
      renumberedName_of_not_isNumbered shift plain] at same

namespace Catalog

variable {α : Type} {rename : String → String} {change : α → α}

/-- The catalog with other names and values; every entry takes the place of its new name. -/
def relabel (rename : String → String) (change : α → α) (catalog : Catalog α) : Catalog α :=
  catalog.entries.foldr (fun entry relabelled => relabelled.insert (rename entry.1) (change entry.2)) ∅

theorem find?_relabel_eq_some_iff
    (injective : ∀ first second, rename first = rename second → first = second)
    {catalog : Catalog α} {name : String} {value : α} :
    (catalog.relabel rename change).find? name = some value ↔
      ∃ old held, catalog.find? old = some held ∧ rename old = name ∧ change held = value := by
  rw [relabel]
  simp only [find?]
  generalize catalog.entries = entries
  induction entries with
  | nil => simp [EmptyCollection.emptyCollection]
  | cons first rest ih =>
      rw [List.foldr_cons, ← find?, find?_insert]
      by_cases own : name = rename first.1
      · rw [if_pos own, Option.some.injEq]
        constructor
        · intro same
          exact ⟨first.1, first.2, by simp [lookup_cons_eq_ite], own.symm, same⟩
        · rintro ⟨old, held, found, named, same⟩
          have key : old = first.1 := injective _ _ (named.trans own)
          rw [lookup_cons_eq_ite, if_pos key, Option.some.injEq] at found
          rw [found, same]
      · rw [if_neg own, find?, ih]
        refine exists_congr fun old => exists_congr fun held => and_congr_left fun holds => ?_
        have other : old ≠ first.1 := fun key => own (by rw [← holds.1, key])
        rw [lookup_cons_eq_ite, if_neg other]

theorem find?_relabel (injective : ∀ first second, rename first = rename second → first = second)
    (catalog : Catalog α) (name : String) :
    (catalog.relabel rename change).find? (rename name) = (catalog.find? name).map change := by
  ext value
  rw [find?_relabel_eq_some_iff injective, Option.map_eq_some_iff]
  constructor
  · rintro ⟨old, held, found, named, same⟩
    exact ⟨held, by rw [← injective _ _ named, found], same⟩
  · rintro ⟨held, found, same⟩
    exact ⟨name, held, found, rfl, same⟩

theorem relabel_insert (injective : ∀ first second, rename first = rename second → first = second)
    (catalog : Catalog α) (name : String) (value : α) :
    (catalog.insert name value).relabel rename change =
      (catalog.relabel rename change).insert (rename name) (change value) := by
  apply eq_of_find?
  intro other
  ext result
  rw [find?_relabel_eq_some_iff injective, find?_insert]
  split
  · rename_i own
    rw [own, Option.some.injEq]
    constructor
    · rintro ⟨old, held, found, named, same⟩
      rw [find?_insert, if_pos (injective _ _ named), Option.some.injEq] at found
      rw [found, same]
    · intro same
      exact ⟨name, value, by rw [find?_insert, if_pos rfl], rfl, same⟩
  · rename_i different
    rw [find?_relabel_eq_some_iff injective]
    refine exists_congr fun old => exists_congr fun held => and_congr_left fun holds => ?_
    have elsewhere : old ≠ name := fun key => different (by rw [← holds.1, key])
    rw [find?_insert, if_neg elsewhere]

theorem relabel_insertIfNew
    (injective : ∀ first second, rename first = rename second → first = second)
    (catalog : Catalog α) (name : String) (value : α) :
    (catalog.insertIfNew name value).relabel rename change =
      (catalog.relabel rename change).insertIfNew (rename name) (change value) := by
  rw [insertIfNew, insertIfNew, find?_relabel injective, Option.isSome_map]
  split
  · rfl
  · exact relabel_insert injective catalog name value

theorem relabel_modify (injective : ∀ first second, rename first = rename second → first = second)
    (catalog : Catalog α) (name : String) {update updated : α → α}
    (commutes : ∀ value, change (update value) = updated (change value)) :
    (catalog.modify name update).relabel rename change =
      (catalog.relabel rename change).modify (rename name) updated := by
  rw [modify, modify, find?_relabel injective]
  cases catalog.find? name with
  | none => rfl
  | some value =>
      rw [relabel_insert injective, commutes]
      rfl

end Catalog

/-! Graphs and their parts with shifted ids. -/

def Edge.renumber (shift : Nat) : Edge → Edge
  | .action name sources sinks active =>
      .action (renumberedName shift name) (sources.map (· + shift)) (sinks.map (· + shift)) active
  | .condition name sinks active => .condition name (sinks.map (· + shift)) active

def Node.renumber (shift : Nat) (node : Node) : Node where
  id := node.id + shift
  name := node.name
  input := node.input.map fun input => { input with edge := renumberedName shift input.edge }
  output := node.output.map (renumberedName shift)
  dispatch := { node.dispatch with actionId := node.dispatch.actionId + shift }

def PlanGraph.renumber (shift : Nat) (graph : PlanGraph) : PlanGraph where
  nodes := graph.nodes.map (Node.renumber shift)
  edges := graph.edges.relabel (renumberedName shift) (Edge.renumber shift)
  conditions := graph.conditions

/-- The action edges are exactly the edges with numbered names. -/
def PlanGraph.Standard (graph : PlanGraph) : Prop :=
  ∀ name edge, graph.edge? name = some edge → (edge.kind = .action ↔ IsNumbered name)

@[simp] theorem Edge.kind_renumber (shift : Nat) (edge : Edge) :
    (edge.renumber shift).kind = edge.kind := by
  cases edge <;> rfl

theorem Edge.extendSinks_map_add (shift : Nat) (sinks : List Nat) (node : Nat) :
    (extendSinks sinks node).map (· + shift) = extendSinks (sinks.map (· + shift)) (node + shift) := by
  have member : node + shift ∈ sinks.map (· + shift) ↔ node ∈ sinks := by simp
  simp only [extendSinks, member]
  split <;> simp

theorem Edge.renumber_addSink (shift node : Nat) (edge : Edge) :
    (edge.addSink node).renumber shift = (edge.renumber shift).addSink (node + shift) := by
  cases edge <;> simp [addSink, renumber, extendSinks_map_add]

@[simp] theorem Node.id_renumber (shift : Nat) (node : Node) :
    (node.renumber shift).id = node.id + shift := rfl

theorem Node.inputEdges_renumber (shift : Nat) (node : Node) :
    (node.renumber shift).inputEdges = node.inputEdges.map (renumberedName shift) := by
  simp [inputEdges, renumber]

theorem Node.renumber_addInput (shift : Nat) (node : Node) (edge : String) :
    (node.addInput edge).renumber shift =
      (node.renumber shift).addInput (renumberedName shift edge) := by
  have listed : (node.renumber shift).hasInput (renumberedName shift edge) = node.hasInput edge := by
    rw [Bool.eq_iff_iff, hasInput, hasInput, inputEdges_renumber, List.contains_iff_mem,
      List.contains_iff_mem, List.mem_map]
    constructor
    · rintro ⟨other, member, same⟩
      rwa [← renumberedName_injective shift same]
    · intro member
      exact ⟨edge, member, rfl⟩
  rw [addInput, addInput, listed]
  split
  · rfl
  · simp [renumber]

namespace PlanGraph

variable {graph : PlanGraph} {shift : Nat}

theorem edge?_renumber_eq_some_iff {name : String} {edge : Edge} :
    (graph.renumber shift).edge? name = some edge ↔
      ∃ old held, graph.edge? old = some held ∧ renumberedName shift old = name ∧
        held.renumber shift = edge :=
  Catalog.find?_relabel_eq_some_iff fun _ _ => renumberedName_injective shift

theorem renumber_connect (name : String) (sink : Nat) :
    (graph.connect name sink).renumber shift =
      (graph.renumber shift).connect (renumberedName shift name) (sink + shift) := by
  have edges := Catalog.relabel_modify (fun _ _ => renumberedName_injective shift)
    graph.edges name (Edge.renumber_addSink shift sink)
  simp [connect, renumber, edges]

theorem renumber_addNode (node : Node) :
    (graph.addNode node).renumber shift = (graph.renumber shift).addNode (node.renumber shift) := by
  simp [addNode, renumber]

namespace Standard

theorem empty : Standard ∅ := by
  intro name edge held
  cases held

theorem renumber (standard : graph.Standard) : (graph.renumber shift).Standard := by
  intro name edge held
  obtain ⟨old, former, found, rfl, rfl⟩ := edge?_renumber_eq_some_iff.mp held
  rw [Edge.kind_renumber, isNumbered_renumberedName]
  exact standard old former found

theorem nameFor_numbered (standard : graph.Standard) (id : Nat) :
    graph.nameFor s!"e{id}" .action = s!"e{id}" := by
  apply nameFor_eq_of_admits
  rw [admits]
  cases found : graph.edge? s!"e{id}" with
  | none => rfl
  | some edge => exact beq_iff_eq.mpr ((standard _ edge found).mpr ⟨id, rfl⟩)

theorem nameFor_plain (standard : graph.Standard) {name : String} (plain : ¬ IsNumbered name) :
    graph.nameFor name .condition = name := by
  apply nameFor_eq_of_admits
  cases found : graph.edge? name with
  | none => simp [admits, found]
  | some edge =>
      cases kind : edge.kind with
      | condition => simp [admits, found, kind]
      | action => exact absurd ((standard name edge found).mp kind) plain

theorem answer_plain (standard : graph.Standard) {name : String} (plain : ¬ IsNumbered name)
    (sink : Nat) (condition : Condition) :
    (graph.registerCondition name sink condition).1 = name :=
  standard.nameFor_plain plain

theorem connect (standard : graph.Standard) (name : String) (sink : Nat) :
    (graph.connect name sink).Standard := by
  intro other edge held
  rw [edge?_connect] at held
  split at held
  · rename_i same
    obtain ⟨former, found, rfl⟩ := Option.map_eq_some_iff.mp held
    rw [Edge.kind_addSink, same]
    exact standard name former found
  · exact standard other edge held

theorem addActionEdge (standard : graph.Standard) (id : Nat) :
    (graph.addActionEdge s!"e{id}" id).2.Standard := by
  intro other edge held
  rw [edge?_addActionEdge, standard.nameFor_numbered] at held
  split at held
  · rename_i same
    obtain rfl := Option.some.inj held
    exact iff_of_true rfl ⟨id, same⟩
  · exact standard other edge held

theorem registerCondition (standard : graph.Standard) {name : String} (plain : ¬ IsNumbered name)
    (sink : Nat) (condition : Condition) :
    (graph.registerCondition name sink condition).2.Standard := by
  intro other edge held
  rw [edge?_registerCondition, standard.nameFor_plain plain] at held
  split at held
  · rename_i same
    obtain rfl := Option.some.inj held
    rw [Edge.kind_addSink, same]
    cases found : graph.edge? name with
    | none => simp [plain, Edge.kind]
    | some former => exact standard name former found
  · exact standard other edge held

theorem renumber_addActionEdge (standard : graph.Standard) (id : Nat) :
    (graph.addActionEdge s!"e{id}" id).2.renumber shift =
      ((graph.renumber shift).addActionEdge s!"e{id + shift}" (id + shift)).2 := by
  have edges := @Catalog.relabel_insert Edge (renumberedName shift) (Edge.renumber shift)
    (fun _ _ => renumberedName_injective shift) graph.edges s!"e{id}" (.action s!"e{id}" [id] [] false)
  rw [renumberedName_numbered] at edges
  have edge : Edge.renumber shift (.action s!"e{id}" [id] [] false) =
      .action s!"e{id + shift}" [id + shift] [] false := by
    rw [Edge.renumber, renumberedName_numbered]
    rfl
  rw [PlanGraph.addActionEdge, PlanGraph.addActionEdge, standard.nameFor_numbered,
    standard.renumber.nameFor_numbered]
  simp only [PlanGraph.renumber]
  rw [edges, edge]

theorem renumber_registerCondition (shift : Nat) (standard : graph.Standard) {name : String}
    (plain : ¬ IsNumbered name) (sink : Nat) (condition : Condition) :
    (graph.registerCondition name sink condition).2.renumber shift =
      ((graph.renumber shift).registerCondition name (sink + shift) condition).2 := by
  have kept := renumberedName_of_not_isNumbered shift plain
  have added := @Catalog.relabel_insertIfNew Edge (renumberedName shift) (Edge.renumber shift)
    (fun _ _ => renumberedName_injective shift) graph.edges name (.condition name [] false)
  have fed := Catalog.relabel_modify (fun _ _ => renumberedName_injective shift)
    (graph.edges.insertIfNew name (.condition name [] false)) name (Edge.renumber_addSink shift sink)
  rw [kept] at added fed
  rw [added] at fed
  rw [PlanGraph.registerCondition, PlanGraph.registerCondition, standard.nameFor_plain plain,
    standard.renumber.nameFor_plain plain]
  simp only [PlanGraph.renumber]
  rw [fed]
  rfl

end Standard

end PlanGraph

end ContingentPlan
