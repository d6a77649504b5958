import ContingentPlan.Proofs.Plan.Failure

/-!
Warnings are written and never read. What a line does besides depends on its token alone, and the
warning that it issues is settled by its token too, up to the number of the line and the text that is
quoted from it.
-/

namespace ContingentPlan

/-- The line of such a warning had no effect at all. -/
def Anomaly.idle : Anomaly → Bool
  | .shallowStack _ => true
  | .emptyStack _ => true
  | .malformedLine _ => true
  | .missingObservation _ => false

namespace Reading

variable {domain : Domain} {reading first second after : Reading} {line other : TraceLine}

def quiet (reading : Reading) : Reading := { reading with warnings := [] }

theorem graph_eq_of_quiet (same : first.quiet = second.quiet) : first.graph = second.graph := by
  have graph := congrArg Reading.graph same
  exact graph

theorem nextId_eq_of_quiet (same : first.quiet = second.quiet) : first.nextId = second.nextId := by
  have nextId := congrArg Reading.nextId same
  exact nextId

def issued (reading : Reading) (line : TraceLine) : List Warning :=
  match line.token? with
  | none => [{ line := line.number, anomaly := .malformedLine line.text }]
  | some .ramificate =>
      if reading.branching && reading.continuations.isEmpty then
        [{ line := line.number, anomaly := .emptyStack "ramificate" }]
      else []
  | some .pop =>
      if reading.continuations.length < 2 then
        [{ line := line.number, anomaly := .shallowStack ((tokenText? line.text).getD "") }]
      else []
  | some (.action signature) => reading.gating.warnings line.number signature.text
  | _ => []

theorem Gates.unique {graph middle final : PlanGraph} {node between finished : Node}
    {gating : Gating} (gates : Gates domain graph node gating middle between)
    (again : Gates domain graph node gating final finished) :
    middle = final ∧ between = finished := by
  cases gates with
  | free =>
      cases again
      exact ⟨rfl, rfl⟩
  | missing =>
      cases again
      exact ⟨rfl, rfl⟩
  | outcome observed =>
      cases again with
      | outcome observedAgain =>
          rw [observed, Except.ok.injEq] at observedAgain
          subst observedAgain
          exact ⟨rfl, rfl⟩

theorem gating_quiet (reading : Reading) : reading.quiet.gating = reading.gating := rfl

theorem connected_quiet (reading : Reading) : reading.quiet.connected = reading.connected := rfl

theorem completion_quiet (reading : Reading) : reading.quiet.completion = reading.completion := by
  rw [completion, completion, connected_quiet]
  rfl

theorem resolution_quiet (reading : Reading) (signature : Signature) (bindings : List Binding) :
    reading.quiet.resolution domain signature bindings =
      reading.resolution domain signature bindings := by
  have outfitted : reading.quiet.outfitted = reading.outfitted := by
    rw [Reading.outfitted, Reading.outfitted, connected_quiet]
    rfl
  have draft : reading.quiet.draft signature bindings = reading.draft signature bindings := by
    rw [Reading.draft, Reading.draft, completion_quiet]
    rfl
  rw [resolution, resolution, outfitted, draft]

theorem Acted.quiet_unique {number otherNumber : Nat} {signature : Signature}
    {bindings otherBindings : List Binding} {graph otherGraph : PlanGraph} {node otherNode : Node}
    {next : Reading}
    (acted : Acted domain number signature reading after bindings graph node)
    (again : Acted domain otherNumber signature reading.quiet next otherBindings otherGraph
      otherNode) : after.quiet = next.quiet := by
  have declared := acted.declared
  rw [again.declared, Except.ok.injEq] at declared
  subst declared
  have gates := again.gates
  rw [resolution_quiet, gating_quiet] at gates
  obtain ⟨rfl, rfl⟩ := acted.gates.unique gates
  rw [acted.after_eq, again.after_eq, completion_quiet]
  rfl

theorem act_quiet (reading : Reading) (number otherNumber : Nat) (signature : Signature) :
    (reading.act domain number signature).map quiet =
      (reading.quiet.act domain otherNumber signature).map quiet := by
  cases acts : reading.act domain number signature with
  | error fault =>
      have misfit := inconsistent_of_act acts
      rw [← gating_quiet] at misfit
      rw [act_eq_error_of_inconsistent misfit]
  | ok after =>
      obtain ⟨_, _, _, acted⟩ := acted_of_act acts
      cases again : reading.quiet.act domain otherNumber signature with
      | error fault =>
          have misfit := inconsistent_of_act again
          rw [gating_quiet] at misfit
          rw [act_eq_error_of_inconsistent misfit] at acts
          cases acts
      | ok next =>
          obtain ⟨_, _, _, actedAgain⟩ := acted_of_act again
          exact congrArg Except.ok (acted.quiet_unique actedAgain)

theorem ramificate_quiet (reading : Reading) (number otherNumber : Nat) :
    (reading.ramificate number).quiet = (reading.quiet.ramificate otherNumber).quiet := by
  obtain ⟨continuations, _, _, _, branching, _, _, _, _⟩ := reading
  cases branching with
  | false => rfl
  | true => cases continuations <;> rfl

theorem pop_quiet (reading : Reading) (number otherNumber : Nat) (token otherToken : String) :
    (reading.pop number token).quiet = (reading.quiet.pop otherNumber otherToken).quiet := by
  obtain ⟨continuations, _, _, _, _, _, _, _, _⟩ := reading
  match continuations with
  | [] => rfl
  | [_] => rfl
  | _ :: _ :: _ => rfl

theorem step_eq_of_token (reading : Reading) (line : TraceLine) :
    reading.step domain line =
      match line.token? with
      | none => .ok (reading.warn line.number (.malformedLine line.text))
      | some .ramificate => .ok (reading.ramificate line.number)
      | some .shed => .ok reading.shed
      | some .pop => .ok (reading.pop line.number ((tokenText? line.text).getD ""))
      | some .assume => .ok { reading with branching := false }
      | some (.action signature) => reading.act domain line.number signature :=
  rfl

theorem step_quiet_of_token (reading : Reading) (token : line.token? = other.token?) :
    (reading.step domain line).map quiet = (reading.quiet.step domain other).map quiet := by
  rw [step_eq_of_token, step_eq_of_token, token]
  cases other.token? with
  | none => rfl
  | some asked =>
      cases asked with
      | ramificate => exact congrArg Except.ok (reading.ramificate_quiet _ _)
      | shed => rfl
      | pop => exact congrArg Except.ok (reading.pop_quiet _ _ _ _)
      | assume => rfl
      | action signature => exact reading.act_quiet _ _ signature

/-- Lines with the same token do the same to readings that differ in their warnings only. -/
theorem step_quiet (same : first.quiet = second.quiet) (token : line.token? = other.token?) :
    (first.step domain line).map quiet = (second.step domain other).map quiet := by
  rw [first.step_quiet_of_token rfl, second.step_quiet_of_token token.symm, same]

theorem cases_of_map_quiet {left right : Except PlanFault Reading}
    (same : left.map quiet = right.map quiet) :
    (∃ fault, left = .error fault ∧ right = .error fault) ∨
      ∃ after next, left = .ok after ∧ right = .ok next ∧ after.quiet = next.quiet := by
  cases left with
  | error fault =>
      cases right with
      | error other =>
          cases same
          exact Or.inl ⟨fault, rfl, rfl⟩
      | ok next => cases same
  | ok after =>
      cases right with
      | error other => cases same
      | ok next => exact Or.inr ⟨after, next, rfl, rfl, Except.ok.inj same⟩

theorem exists_step_of_quiet (same : first.quiet = second.quiet)
    (token : line.token? = other.token?) (step : first.step domain line = .ok after) :
    ∃ next, second.step domain other = .ok next ∧ after.quiet = next.quiet := by
  rcases cases_of_map_quiet (step_quiet same token) with
    ⟨fault, fails, -⟩ | ⟨middle, next, ran, stepped, quiet⟩
  · rw [step] at fails
    cases fails
  · rw [step] at ran
    obtain rfl := Except.ok.inj ran
    exact ⟨next, stepped, quiet⟩

theorem issued_of_quiet (same : first.quiet = second.quiet) (line : TraceLine) :
    first.issued line = second.issued line := by
  have hushed (reading : Reading) : reading.quiet.issued line = reading.issued line := rfl
  rw [← hushed first, same, hushed]

theorem warnings_step (step : reading.step domain line = .ok after) :
    after.warnings = reading.warnings ++ reading.issued line := by
  rw [step_eq_of_token] at step
  rw [issued]
  cases token : line.token? with
  | none =>
      rw [token] at step
      cases step
      rfl
  | some asked =>
      rw [token] at step
      cases asked with
      | ramificate =>
          cases step
          obtain ⟨continuations, _, _, _, branching, _, _, _, _⟩ := reading
          cases branching with
          | false => simp [ramificate]
          | true => cases continuations <;> simp [ramificate, warn]
      | shed =>
          cases step
          simp [shed]
      | pop =>
          cases step
          obtain ⟨continuations, _, _, _, _, _, _, _, _⟩ := reading
          rcases continuations with _ | ⟨top, _ | ⟨below, deeper⟩⟩
          · rfl
          · rfl
          · simp [pop]
      | assume =>
          cases step
          simp
      | action signature =>
          obtain ⟨_, _, _, acted⟩ := acted_of_act step
          rw [acted.after_eq, missingObservations_eq]

theorem issued_at_most_one (reading : Reading) (line : TraceLine) :
    reading.issued line = [] ∨ ∃ anomaly, reading.issued line = [⟨line.number, anomaly⟩] := by
  rw [issued]
  split
  · exact Or.inr ⟨_, rfl⟩
  · split
    · exact Or.inr ⟨_, rfl⟩
    · exact Or.inl rfl
  · split
    · exact Or.inr ⟨_, rfl⟩
    · exact Or.inl rfl
  · cases reading.gating with
    | free => exact Or.inl rfl
    | missing => exact Or.inr ⟨_, rfl⟩
    | outcome => exact Or.inl rfl
  · exact Or.inl rfl

theorem quiet_step_of_idle (step : reading.step domain line = .ok after) {warning : Warning}
    (issues : warning ∈ reading.issued line) (idle : warning.anomaly.idle = true) :
    after.quiet = reading.quiet := by
  rw [step_eq_of_token] at step
  rw [issued] at issues
  cases token : line.token? with
  | none =>
      rw [token] at step
      cases step
      rfl
  | some asked =>
      rw [token] at step issues
      cases asked with
      | ramificate =>
          cases step
          obtain ⟨continuations, _, _, _, branching, _, _, _, _⟩ := reading
          cases branching with
          | false => simp at issues
          | true =>
              cases continuations with
              | nil => rfl
              | cons => simp at issues
      | shed => cases issues
      | pop =>
          cases step
          obtain ⟨continuations, _, _, _, _, _, _, _, _⟩ := reading
          match continuations with
          | [] => rfl
          | [_] => rfl
          | _ :: _ :: _ =>
              dsimp only at issues
              rw [if_neg (by simp)] at issues
              cases issues
      | assume => cases issues
      | action signature =>
          dsimp only at issues
          cases gating : reading.gating with
          | missing =>
              rw [gating, Gating.warnings, List.mem_singleton] at issues
              rw [issues] at idle
              cases idle
          | free =>
              rw [gating] at issues
              cases issues
          | outcome =>
              rw [gating] at issues
              cases issues

def issuedAlong (domain : Domain) (reading : Reading) : List TraceLine → List Warning
  | [] => []
  | line :: lines =>
      reading.issued line ++
        match reading.step domain line with
        | .ok next => issuedAlong domain next lines
        | .error _ => []

theorem warnings_run {lines : List TraceLine}
    (run : lines.foldlM (step domain) reading = .ok after) :
    after.warnings = reading.warnings ++ reading.issuedAlong domain lines := by
  induction lines generalizing reading with
  | nil =>
      cases run
      simp [issuedAlong]
  | cons line lines ih =>
      rw [List.foldlM_cons, except_bind_eq_ok] at run
      obtain ⟨middle, step, rest⟩ := run
      rw [ih rest, warnings_step step, issuedAlong, step, List.append_assoc]

theorem line_of_mem_issued {warning : Warning} (issues : warning ∈ reading.issued line) :
    warning.line = line.number := by
  rcases reading.issued_at_most_one line with none | ⟨anomaly, one⟩
  · rw [none] at issues
    cases issues
  · rw [one, List.mem_singleton] at issues
    rw [issues]

theorem line_of_mem_issuedAlong {lines : List TraceLine} {warning : Warning}
    (issues : warning ∈ reading.issuedAlong domain lines) :
    ∃ line ∈ lines, warning.line = line.number := by
  induction lines generalizing reading with
  | nil => cases issues
  | cons line lines ih =>
      rw [issuedAlong, List.mem_append] at issues
      rcases issues with here | later
      · exact ⟨line, List.mem_cons_self, line_of_mem_issued here⟩
      · split at later
        · obtain ⟨other, among, number⟩ := ih later
          exact ⟨other, List.mem_cons_of_mem _ among, number⟩
        · cases later

theorem ascending_issuedAlong {lines : List TraceLine}
    (ascending : lines.Pairwise (·.number < ·.number)) :
    (reading.issuedAlong domain lines).Pairwise (·.line < ·.line) := by
  induction lines generalizing reading with
  | nil => exact List.Pairwise.nil
  | cons line lines ih =>
      obtain ⟨below, rest⟩ := List.pairwise_cons.mp ascending
      rw [issuedAlong, List.pairwise_append]
      refine ⟨?_, ?_, ?_⟩
      · rcases reading.issued_at_most_one line with none | ⟨anomaly, one⟩
        · rw [none]
          exact List.Pairwise.nil
        · rw [one]
          exact List.pairwise_singleton _ _
      · split
        · exact ih rest
        · exact List.Pairwise.nil
      · intro own issues later behind
        split at behind
        · obtain ⟨other, among, number⟩ := line_of_mem_issuedAlong behind
          rw [line_of_mem_issued issues, number]
          exact below other among
        · cases behind

end Reading

end ContingentPlan
