import ContingentPlan.Proofs.Reading.Sound
import ContingentPlan.Proofs.Text.Words
import ContingentPlan.Session

/-!
The nodes of a plan are its action lines. They are numbered without a gap from the free id on, each
one performs the words of its line, and the action edges are exactly the completion edges of the
nodes.
-/

namespace ContingentPlan

def TraceLine.actionText? (line : TraceLine) : Option String :=
  match line.token? with
  | some (.action _) => tokenText? line.text
  | _ => none

theorem TraceLine.actionText?_eq_some {line : TraceLine} {signature : Signature}
    (token : line.token? = some (.action signature)) :
    ∃ text, line.actionText? = some text ∧ Signature.ofText? text = some signature := by
  obtain ⟨text, found, read⟩ := Option.bind_eq_some_iff.mp token
  refine ⟨text, by simp [actionText?, token, found], ?_⟩
  unfold Token.ofText? at read
  split at read
  · cases read
  split at read
  · cases read
  split at read
  · cases read
  split at read
  · cases read
  simpa using read

theorem Reading.Steered.actionText? {line : TraceLine} {reading after : Reading}
    (steered : Steered line reading after) : line.actionText? = none := by
  unfold TraceLine.actionText?
  split
  · rename_i signature token
    exact absurd token (steered.silent signature)
  · rfl

structure Performs (domain : Domain) (id : Nat) (text operator : String)
    (arguments labels : List String) (node : Node) : Prop where
  words : Text.words text = operator :: arguments
  declared : domain.operatorLabels operator = .ok labels
  nodeId : node.id = id
  name : node.name = " ".intercalate (Text.words text)
  dispatchId : node.dispatch.actionId = id
  dispatchName : node.dispatch.name = operator
  values : node.dispatch.parameters.map Binding.value = arguments
  keys : node.dispatch.parameters.map Binding.key = labels.take arguments.length
  parsed : Signature.ofText? node.name = some { operator, arguments }

theorem bindings_zipWith {labels arguments : List String}
    (enough : arguments.length ≤ labels.length) :
    (labels.zipWith Binding.mk arguments).map Binding.value = arguments ∧
      (labels.zipWith Binding.mk arguments).map Binding.key = labels.take arguments.length := by
  induction arguments generalizing labels with
  | nil => simp
  | cons argument arguments ih =>
      cases labels with
      | nil => simp at enough
      | cons label labels =>
          have rest := ih (show arguments.length ≤ labels.length by simpa using enough)
          simp [rest]

theorem Reading.parameters_eq_ok {domain : Domain} {signature : Signature}
    {parameters : List Binding} (read : Reading.parameters domain signature = .ok parameters) :
    ∃ labels, domain.operatorLabels signature.operator = .ok labels ∧
      parameters.map Binding.value = signature.arguments ∧
      parameters.map Binding.key = labels.take signature.arguments.length := by
  unfold Reading.parameters at read
  split at read
  · cases read
  · rename_i labels declared
    split at read
    · cases read
    · rename_i enough
      cases read
      exact ⟨labels, declared, bindings_zipWith (by omega)⟩

theorem Reading.Acted.performs {domain : Domain} {line : Nat} {signature : Signature}
    {reading after : Reading} {parameters : List Binding} {graph : PlanGraph} {node : Node}
    (acted : Acted domain line signature reading after parameters graph node) {text : String}
    (read : Signature.ofText? text = some signature) :
    ∃ operator arguments labels,
      Performs domain reading.nextId text operator arguments labels node := by
  obtain ⟨labels, declared, values, keys⟩ := Reading.parameters_eq_ok acted.declared
  have words : Text.words text = signature.operator :: signature.arguments := by
    unfold Signature.ofText? at read
    split at read
    · cases read
    · rename_i operator arguments found
      cases read
      exact found
  refine ⟨signature.operator, signature.arguments, labels, ?_⟩
  constructor
  · exact words
  · exact declared
  · exact acted.id_eq
  · rw [acted.name_eq, words]
    rfl
  · rw [acted.dispatch_eq]
  · rw [acted.dispatch_eq]
  · rw [acted.dispatch_eq]
    exact values
  · rw [acted.dispatch_eq]
    exact keys
  · rw [acted.name_eq]
    exact Signature.ofText?_text read

structure Recorded (domain : Domain) (freeId : Nat) (texts : List String) (reading : Reading) :
    Prop where
  nextId : reading.nextId = freeId + texts.length
  ids : reading.graph.nodes.map Node.id = List.range' freeId texts.length
  performs : ∀ position text, texts[position]? = some text →
    ∃ operator arguments labels node, reading.graph.nodes[position]? = some node ∧
      Performs domain (freeId + position) text operator arguments labels node

namespace Recorded

variable {domain : Domain} {freeId : Nat} {texts : List String} {reading after : Reading}

theorem start : Recorded domain freeId [] { nextId := freeId } where
  nextId := rfl
  ids := rfl
  performs := by simp

theorem steer (recorded : Recorded domain freeId texts reading) {line : TraceLine}
    (silent : line.actionText? = none) (graph : after.graph = reading.graph)
    (nextId : after.nextId = reading.nextId) :
    Recorded domain freeId (texts ++ line.actionText?.toList) after := by
  have same : texts ++ line.actionText?.toList = texts := by simp [silent]
  rw [same]
  constructor
  · rw [nextId]
    exact recorded.nextId
  · rw [graph]
    exact recorded.ids
  · rw [graph]
    exact recorded.performs

theorem count (recorded : Recorded domain freeId texts reading) :
    reading.graph.nodes.length = texts.length := by
  have lengths := congrArg List.length recorded.ids
  simpa using lengths

theorem act (recorded : Recorded domain freeId texts reading) {line : Nat} {signature : Signature}
    {parameters : List Binding} {graph : PlanGraph} {node : Node}
    (acted : Reading.Acted domain line signature reading after parameters graph node)
    {text : String} (read : Signature.ofText? text = some signature) :
    Recorded domain freeId (texts ++ [text]) after := by
  have nodes := acted.nodes_after
  constructor
  · rw [acted.after_eq, List.length_append, recorded.nextId]
    simp [Nat.add_assoc]
  · rw [nodes, List.map_append, recorded.ids, List.length_append, List.length_singleton,
      List.range'_1_concat, ← recorded.nextId, ← acted.id_eq]
    rfl
  · intro position other at_
    rw [nodes]
    by_cases older : position < texts.length
    · rw [List.getElem?_append_left older] at at_
      obtain ⟨operator, arguments, labels, stored, found, performs⟩ :=
        recorded.performs position other at_
      refine ⟨operator, arguments, labels, stored, ?_, performs⟩
      rw [List.getElem?_append_left (by rw [recorded.count]; exact older)]
      exact found
    · have bound := (List.getElem?_eq_some_iff.mp at_).1
      rw [List.length_append, List.length_singleton] at bound
      have last : position = texts.length := by omega
      subst last
      rw [List.getElem?_concat_length, Option.some.injEq] at at_
      subst at_
      obtain ⟨operator, arguments, labels, performs⟩ := acted.performs read
      rw [recorded.nextId] at performs
      refine ⟨operator, arguments, labels, node, ?_, performs⟩
      rw [← recorded.count, List.getElem?_concat_length]

theorem stepped (recorded : Recorded domain freeId texts reading) {line : TraceLine}
    (stepped : Reading.Stepped domain line reading after) :
    Recorded domain freeId (texts ++ line.actionText?.toList) after := by
  rcases stepped.acted_or_steered with ⟨_, _, _, _, token, acted⟩ | steered
  · obtain ⟨text, found, read⟩ := TraceLine.actionText?_eq_some token
    rw [found]
    exact recorded.act acted read
  · exact recorded.steer steered.actionText? steered.graph steered.nextId

theorem reads {lines : List TraceLine} (reads : Reading.Reads domain freeId lines reading) :
    Recorded domain freeId (lines.filterMap TraceLine.actionText?) reading := by
  induction reads with
  | start => exact start
  | @line lines line _ _ _ stepped ih =>
      have texts : (lines ++ [line]).filterMap TraceLine.actionText? =
          lines.filterMap TraceLine.actionText? ++ line.actionText?.toList := by
        rw [List.filterMap_append]
        cases found : line.actionText? <;> simp [found]
      rw [texts]
      exact ih.stepped stepped

end Recorded

theorem id_getElem_of_ids {nodes : List Node} {freeId : Nat}
    (ids : nodes.map Node.id = List.range' freeId nodes.length) (position : Nat)
    (bound : position < nodes.length) : nodes[position].id = freeId + position := by
  have entry := congrArg (fun list : List Nat => list[position]?) ids
  simpa [bound] using entry

theorem find?_of_ids {nodes : List Node} {freeId position : Nat} {node : Node}
    (ids : nodes.map Node.id = List.range' freeId nodes.length)
    (found : nodes[position]? = some node) :
    nodes.find? (·.id == freeId + position) = some node := by
  obtain ⟨bound, rfl⟩ := List.getElem?_eq_some_iff.mp found
  rw [List.find?_eq_some_iff_getElem]
  refine ⟨by simp [id_getElem_of_ids ids], position, bound, rfl, ?_⟩
  intro earlier below
  have earlierId := id_getElem_of_ids ids earlier (by omega)
  simp only [Bool.not_eq_true', beq_eq_false_iff_ne, earlierId]
  omega

theorem eq_of_ids {nodes : List Node} {freeId : Nat} {first second : Node}
    (ids : nodes.map Node.id = List.range' freeId nodes.length) (firstMember : first ∈ nodes)
    (secondMember : second ∈ nodes) (same : first.id = second.id) : first = second := by
  obtain ⟨one, oneBound, rfl⟩ := List.getElem_of_mem firstMember
  obtain ⟨two, twoBound, rfl⟩ := List.getElem_of_mem secondMember
  have positions : one = two := by
    rw [id_getElem_of_ids ids one oneBound, id_getElem_of_ids ids two twoBound] at same
    omega
  simp [positions]

/-- Nodes, numbers and completion edges of a plan whose block holds the given action texts. -/
structure Numbered (domain : Domain) (freeId : Nat) (texts : List String) (plan : Plan) : Prop where
  ids : plan.graph.nodes.map Node.id = List.range' freeId texts.length
  nodeCount : plan.report.nodeCount = texts.length
  nextId : plan.report.nextId = freeId + texts.length
  performs : ∀ position text, texts[position]? = some text →
    ∃ operator arguments labels node, plan.graph.node? (freeId + position) = some node ∧
      Performs domain (freeId + position) text operator arguments labels node
  output : ∀ node ∈ plan.graph.nodes, ∃ name edge, node.output = [name] ∧
    plan.graph.edge? name = some edge ∧ edge.kind = .action ∧ edge.sources = [node.id]
  produced : ∀ name edge, plan.graph.edge? name = some edge → edge.kind = .action →
    ∃ node ∈ plan.graph.nodes, node.output = [name] ∧
      ∀ other ∈ plan.graph.nodes, name ∈ other.output → other = node

theorem Recorded.numbered {domain : Domain} {freeId : Nat} {texts : List String}
    {reading : Reading} (recorded : Recorded domain freeId texts reading) (sound : Sound reading) :
    Numbered domain freeId texts
      { found := true, graph := reading.graph, nextId := reading.nextId,
        warnings := reading.warnings } := by
  have ids := recorded.ids
  rw [← recorded.count] at ids
  constructor
  · exact recorded.ids
  · exact recorded.count
  · exact recorded.nextId
  · intro position text line
    obtain ⟨operator, arguments, labels, node, found, performs⟩ :=
      recorded.performs position text line
    exact ⟨operator, arguments, labels, node, find?_of_ids ids found, performs⟩
  · intro node member
    obtain ⟨name, output, producers, -⟩ := sound.completed.output node member
    obtain ⟨edge, found, kind, sources⟩ := PlanGraph.producers?_eq_some_iff.mp producers
    exact ⟨name, edge, output, found, kind, sources⟩
  · intro name edge found kind
    obtain ⟨node, member, output, -, named⟩ :=
      sound.completed.producer (PlanGraph.producers?_of_edge? found kind)
    refine ⟨node, member, output, ?_⟩
    intro other among listed
    obtain ⟨single, held, -, ofOther⟩ := sound.completed.output other among
    rw [held, List.mem_singleton] at listed
    subst listed
    exact eq_of_ids ids among member (ofOther.id_eq named)

theorem length_lt_of_planBlock? {trace : String} {block : List TraceLine}
    (announced : planBlock? trace = some block) : block.length < (Text.lines trace).length := by
  unfold planBlock? at announced
  split at announced
  · cases announced
  · rename_i first rest found
    cases announced
    have suffix := (List.dropWhile_sublist (l := (Text.lines trace).zipIdx 1)
      fun line => !announcesPlan line.1).length_le
    rw [found, List.length_cons, List.length_zipIdx] at suffix
    refine Nat.lt_of_le_of_lt ?_ (Nat.lt_of_succ_le suffix)
    refine (List.length_filter_le _ _).trans ((List.takeWhile_sublist _).length_le.trans ?_)
    rw [List.length_map]

theorem Recorded.nextId_le {domain : Domain} {freeId : Nat} {lines : List TraceLine} {reading : Reading}
    (recorded : Recorded domain freeId (lines.filterMap TraceLine.actionText?) reading) :
    reading.nextId ≤ freeId + lines.length := by
  rw [recorded.nextId]
  exact Nat.add_le_add_left (List.length_filterMap_le _ _) _

theorem Recorded.id_lt {domain : Domain} {freeId : Nat} {texts : List String} {reading : Reading}
    (recorded : Recorded domain freeId texts reading) {node : Node} (stored : node ∈ reading.graph.nodes) :
    node.id < reading.nextId := by
  have numbered := List.mem_map_of_mem stored (f := Node.id)
  rw [recorded.ids, List.mem_range'_1] at numbered
  rw [recorded.nextId]
  exact numbered.2

/-- The ids of a plan and the next free one fit 64 bits, if those that count the trace's lines from the
free id on do. -/
theorem Plan.ids_lt_of_ofTrace {domain : Domain} {trace : String} {freeId : Nat} {plan : Plan}
    (read : Plan.ofTrace domain trace freeId = .ok plan)
    (room : freeId + (Text.lines trace).length < Nat.pow 2 64) :
    plan.nextId < Nat.pow 2 64 ∧ ∀ node ∈ plan.graph.nodes, node.id < plan.nextId := by
  rcases Plan.reads_of_ofTrace read with ⟨-, rfl⟩ | ⟨block, reading, announced, run, rfl⟩
  · exact ⟨Nat.lt_of_le_of_lt (Nat.le_add_right _ _) room, fun node member => nomatch member⟩
  · have reads := Reading.Reads.start.foldlM run
    rw [List.nil_append] at reads
    have recorded := Recorded.reads reads
    have few := length_lt_of_planBlock? announced
    have last : reading.nextId < Nat.pow 2 64 := by
      have counted := recorded.nextId_le
      omega
    exact ⟨last, fun node stored => recorded.id_lt stored⟩

theorem Plan.numbered_of_ofTrace {domain : Domain} {trace : String} {freeId : Nat} {plan : Plan}
    (read : Plan.ofTrace domain trace freeId = .ok plan) (found : plan.report.planFound = true) :
    ∃ block, planBlock? trace = some block ∧
      Numbered domain freeId (block.filterMap TraceLine.actionText?) plan := by
  rcases Plan.reads_of_ofTrace read with ⟨-, rfl⟩ | ⟨block, reading, announced, run, rfl⟩
  · cases found
  · have reads := Reading.Reads.start.foldlM run
    rw [List.nil_append] at reads
    exact ⟨block, announced, (Recorded.reads reads).numbered (Sound.reads reads)⟩

theorem detour_numbered : ∃ block plan, planBlock? detourTrace = some block ∧
    Plan.ofTrace .rooms detourTrace 0 = .ok plan ∧ plan.report.planFound = true ∧
    plan.graph.nodes.length = 4 ∧
    Numbered .rooms 0 (block.filterMap TraceLine.actionText?) plan := by
  obtain ⟨block, plan, announced, -, read, found, count⟩ := exists_detour
  obtain ⟨same, again, numbered⟩ := Plan.numbered_of_ofTrace read found
  rw [announced, Option.some.injEq] at again
  subst again
  exact ⟨block, plan, announced, read, found, count, numbered⟩

end ContingentPlan
