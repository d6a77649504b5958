import ContingentPlan.FreshName

/-!
The search for a name answers the first admissible candidate. When only names of a given list are
refused and the candidates differ from each other, one of them is admissible within the bound.
-/

namespace ContingentPlan

theorem firstAdmissible_eq_candidate (admissible : String → Bool) (candidate : Nat → String)
    (bound start : Nat) :
    ∃ attempt, start ≤ attempt ∧ attempt ≤ start + bound ∧
      firstAdmissible admissible candidate bound start = candidate attempt ∧
      (∀ earlier, start ≤ earlier → earlier < attempt → admissible (candidate earlier) = false) ∧
      (attempt < start + bound → admissible (candidate attempt) = true) := by
  induction bound generalizing start with
  | zero => exact ⟨start, by omega, by omega, rfl, by omega, by omega⟩
  | succ bound ih =>
      simp only [firstAdmissible]
      by_cases accepted : admissible (candidate start) = true
      · exact ⟨start, by omega, by omega, by simp [accepted], by omega, fun _ => accepted⟩
      · obtain ⟨attempt, lower, upper, answer, refused, admitted⟩ := ih (start + 1)
        refine ⟨attempt, by omega, by omega, by simpa [accepted] using answer, ?_,
          fun below => admitted (by omega)⟩
        intro earlier first later
        by_cases same : earlier = start
        · simpa [same] using accepted
        · exact refused earlier (by omega) later

/-- Candidates that differ from each other cannot all be among fewer names. -/
theorem attempts_le_length {candidate : Nat → String} {taken : List String} {attempts : Nat}
    (injective : ∀ first second, candidate first = candidate second → first = second)
    (among : ∀ earlier < attempts, candidate earlier ∈ taken) : attempts ≤ taken.length := by
  have unique : ((List.range attempts).map candidate).Nodup := by
    rw [List.nodup_iff_pairwise_ne, List.pairwise_map]
    exact List.nodup_range.imp fun different same => different (injective _ _ same)
  have covered : (List.range attempts).map candidate ⊆ taken := by
    intro name member
    obtain ⟨index, below, rfl⟩ := List.mem_map.mp member
    exact among index (List.mem_range.mp below)
  simpa using unique.length_le_of_subset covered

theorem firstAdmissible_spec {admissible : String → Bool} {candidate : Nat → String}
    {taken : List String} (refusedTaken : ∀ name, admissible name = false → name ∈ taken)
    (injective : ∀ first second, candidate first = candidate second → first = second) :
    ∃ attempt ≤ taken.length,
      firstAdmissible admissible candidate taken.length 0 = candidate attempt ∧
      admissible (candidate attempt) = true ∧
      ∀ earlier < attempt, admissible (candidate earlier) = false := by
  obtain ⟨attempt, -, upper, answer, refused, admitted⟩ :=
    firstAdmissible_eq_candidate admissible candidate taken.length 0
  refine ⟨attempt, by omega, answer, ?_, fun earlier below => refused earlier (by omega) below⟩
  by_cases within : attempt < 0 + taken.length
  · exact admitted within
  · by_cases accepted : admissible (candidate attempt) = true
    · exact accepted
    · have tooMany : attempt + 1 ≤ taken.length := by
        apply attempts_le_length injective
        intro index below
        apply refusedTaken
        by_cases last : index = attempt
        · simpa [last] using accepted
        · exact refused index (by omega) (by omega)
      omega

end ContingentPlan
