import ContingentPlan.Proofs.Plan.Numbering
import ContingentPlan.Proofs.Reading.Growth

/-!
A line in the middle of a block. The lines behind it leave its node alone, and they only add warnings
with numbers of their own. So what holds of the node of an action line when it is added still holds in
the plan.
-/

namespace ContingentPlan

namespace Reading

variable {domain : Domain} {reading middle after : Reading}

theorem warnings_ramificate (reading : Reading) (line : Nat) :
    ∃ more, (reading.ramificate line).warnings = reading.warnings ++ more ∧
      ∀ warning ∈ more, warning.line = line := by
  unfold ramificate
  split
  · split
    · exact ⟨_, rfl, by simp⟩
    · exact ⟨[], by simp, by simp⟩
  · exact ⟨[], by simp, by simp⟩

theorem warnings_pop (reading : Reading) (line : Nat) (token : String) :
    ∃ more, (reading.pop line token).warnings = reading.warnings ++ more ∧
      ∀ warning ∈ more, warning.line = line := by
  unfold pop
  split
  · exact ⟨[], by simp, by simp⟩
  · exact ⟨_, rfl, by simp⟩

theorem Stepped.warnings {line : TraceLine} (stepped : Stepped domain line reading after) :
    ∃ more, after.warnings = reading.warnings ++ more ∧
      ∀ warning ∈ more, warning.line = line.number := by
  cases stepped with
  | malformed => exact ⟨_, rfl, by simp⟩
  | ramificate => exact reading.warnings_ramificate line.number
  | shed => exact ⟨[], by simp [Reading.shed], by simp⟩
  | pop => exact reading.warnings_pop line.number _
  | assume => exact ⟨[], by simp, by simp⟩
  | @action signature _ _ _ _ _ acted =>
      refine ⟨reading.missingObservations line.number signature.text, by rw [acted.after_eq], ?_⟩
      intro warning member
      unfold missingObservations at member
      split at member
      · rw [List.mem_singleton] at member
        rw [member]
      · cases member

theorem warnings_foldlM {lines : List TraceLine}
    (run : lines.foldlM (step domain) reading = .ok after) :
    ∃ more, after.warnings = reading.warnings ++ more ∧
      ∀ warning ∈ more, ∃ line ∈ lines, warning.line = line.number := by
  induction lines generalizing reading with
  | nil =>
      cases run
      exact ⟨[], by simp, by simp⟩
  | cons line lines ih =>
      rw [List.foldlM_cons, except_bind_eq_ok] at run
      obtain ⟨middle, step, rest⟩ := run
      obtain ⟨own, first, ofLine⟩ := (stepped_of_step step).warnings
      obtain ⟨more, second, ofLines⟩ := ih rest
      refine ⟨own ++ more, by rw [second, first, List.append_assoc], ?_⟩
      intro warning member
      rcases List.mem_append.mp member with here | later
      · exact ⟨line, List.mem_cons_self, ofLine warning here⟩
      · obtain ⟨other, among, same⟩ := ofLines warning later
        exact ⟨other, List.mem_cons_of_mem _ among, same⟩

theorem foldlM_split {before after : List TraceLine} {line : TraceLine} {start final : Reading}
    (run : (before ++ line :: after).foldlM (step domain) start = .ok final) :
    ∃ reading middle, before.foldlM (step domain) start = .ok reading ∧
      reading.step domain line = .ok middle ∧ after.foldlM (step domain) middle = .ok final := by
  rw [List.foldlM_append, except_bind_eq_ok] at run
  obtain ⟨reading, first, rest⟩ := run
  rw [List.foldlM_cons, except_bind_eq_ok] at rest
  obtain ⟨middle, step, last⟩ := rest
  exact ⟨reading, middle, first, step, last⟩

theorem acted_of_step {line : TraceLine} {signature : Signature}
    (token : line.token? = some (.action signature))
    (step : reading.step domain line = .ok after) :
    ∃ parameters graph node,
      Acted domain line.number signature reading after parameters graph node := by
  rcases (stepped_of_step step).acted_or_steered with
    ⟨other, parameters, graph, node, own, acted⟩ | steered
  · rw [token, Option.some.injEq, Token.action.injEq] at own
    subst own
    exact ⟨parameters, graph, node, acted⟩
  · exact absurd token (steered.silent signature)

end Reading

namespace Sound

variable {domain : Domain} {reading after : Reading}

theorem grows_stepped (sound : Sound reading) {line : TraceLine}
    (stepped : Reading.Stepped domain line reading after) : Grows reading.graph after.graph := by
  rcases stepped.acted_or_steered with ⟨_, _, _, _, -, acted⟩ | steered
  · exact sound.grows_act acted
  · rw [steered.graph]
    exact .refl

theorem foldlM (sound : Sound reading) {lines : List TraceLine}
    (run : lines.foldlM (Reading.step domain) reading = .ok after) :
    Sound after ∧ Grows reading.graph after.graph := by
  induction lines generalizing reading with
  | nil =>
      cases run
      exact ⟨sound, .refl⟩
  | cons line lines ih =>
      rw [List.foldlM_cons, except_bind_eq_ok] at run
      obtain ⟨middle, step, rest⟩ := run
      have stepped := Reading.stepped_of_step step
      obtain ⟨final, grows⟩ := ih (sound.stepped stepped) rest
      exact ⟨final, (sound.grows_stepped stepped).trans grows⟩

end Sound

namespace Reading

/-- An action line in the middle of a block: `node` is its node, with the readings before it, behind it
and at the end of the block. -/
structure Placed (domain : Domain) (freeId : Nat) (before : List TraceLine) (line : TraceLine)
    (after : List TraceLine) (signature : Signature) (parameters : List Binding)
    (graph : PlanGraph) (node : Node) (reading middle final : Reading) : Prop where
  reads : Reads domain freeId before reading
  first : before.foldlM (step domain) { nextId := freeId } = .ok reading
  step : reading.step domain line = .ok middle
  acted : Acted domain line.number signature reading middle parameters graph node
  last : after.foldlM (Reading.step domain) middle = .ok final
  sound : Sound final
  grows : Grows middle.graph final.graph
  stored : final.graph.node? (freeId + (before.filterMap TraceLine.actionText?).length) = some node

theorem placed_of_foldlM {domain : Domain} {freeId : Nat} {before after : List TraceLine}
    {line : TraceLine} {signature : Signature} {final : Reading}
    (run : (before ++ line :: after).foldlM (step domain) { nextId := freeId } = .ok final)
    (action : line.token? = some (.action signature)) :
    ∃ reading middle parameters graph node,
      Placed domain freeId before line after signature parameters graph node reading middle final := by
  obtain ⟨reading, middle, first, step, last⟩ := foldlM_split run
  obtain ⟨parameters, graph, node, acted⟩ := acted_of_step action step
  have reads := Reads.start.foldlM first
  rw [List.nil_append] at reads
  have sound := Sound.reads reads
  obtain ⟨soundFinal, grows⟩ := (sound.act acted).foldlM last
  have stored := grows.node? (sound.node?_act acted)
  rw [(Recorded.reads reads).nextId] at stored
  exact ⟨reading, middle, parameters, graph, node,
    ⟨reads, first, step, acted, last, soundFinal, grows, stored⟩⟩

end Reading

theorem Plan.foldlM_of_ofTrace {domain : Domain} {trace : String} {freeId : Nat} {plan : Plan}
    {block : List TraceLine} (read : Plan.ofTrace domain trace freeId = .ok plan)
    (announced : planBlock? trace = some block) :
    ∃ reading, block.foldlM (Reading.step domain) { nextId := freeId } = .ok reading ∧
      plan = { found := true, graph := reading.graph, nextId := reading.nextId,
               warnings := reading.warnings } := by
  rcases Plan.reads_of_ofTrace read with ⟨absent, -⟩ | ⟨other, reading, found, run, same⟩
  · rw [announced] at absent
    cases absent
  · rw [announced, Option.some.injEq] at found
    subst found
    exact ⟨reading, run, same⟩

theorem Plan.ofTrace_of_foldlM {domain : Domain} {trace : String} {freeId : Nat}
    {block : List TraceLine} {reading : Reading} (announced : planBlock? trace = some block)
    (run : block.foldlM (Reading.step domain) { nextId := freeId } = .ok reading) :
    Plan.ofTrace domain trace freeId = .ok
      { found := true, graph := reading.graph, nextId := reading.nextId,
        warnings := reading.warnings } := by
  rw [Plan.ofTrace, announced]
  dsimp only
  rw [run]
  rfl

theorem Plan.ofTrace_eq_error_iff_foldlM {domain : Domain} {trace : String} {freeId : Nat}
    {fault : PlanFault} :
    Plan.ofTrace domain trace freeId = .error fault ↔
      ∃ block, planBlock? trace = some block ∧
        block.foldlM (Reading.step domain) { nextId := freeId } = .error fault := by
  rw [Plan.ofTrace]
  cases planBlock? trace with
  | none => simp
  | some block =>
      cases run : block.foldlM (Reading.step domain) { nextId := freeId } <;>
        simp [run, Except.map]

theorem ascending_planBlock? {trace : String} {block : List TraceLine}
    (announced : planBlock? trace = some block) : block.Pairwise (·.number < ·.number) := by
  have numbered : ((Text.lines trace).zipIdx 1).Pairwise (·.2 < ·.2) := by
    rw [← List.pairwise_map, List.zipIdx_map_snd]
    exact List.pairwise_lt_range'
  unfold planBlock? at announced
  split at announced
  · cases announced
  · rename_i first rest found
    cases announced
    have suffix : (first :: rest).Sublist ((Text.lines trace).zipIdx 1) := by
      rw [← found]
      exact List.dropWhile_sublist _
    have ascending := (numbered.sublist suffix).tail
    apply List.Pairwise.filter
    apply List.Pairwise.sublist (List.takeWhile_sublist _)
    rw [List.pairwise_map]
    exact ascending

end ContingentPlan
