import ContingentPlan.Proofs.Text.Lowercase

/-!
The lower case of a text has no other lower case. The letters to which case leads are none that it leads
away from, and a capital sigma is not among them.
-/

namespace ContingentPlan.Text

def isSmall (point : Nat) : Bool :=
  caseRuns.all (!·.contains point) && point != 0x130 && !(0x41 ≤ point && point ≤ 0x5A)

/-- The numbers from `first` to `last` are no capitals, or only those between them that the stride
passes over. -/
def clearOfCapitals (first last stride : Nat) : Bool :=
  caseRuns.all fun run =>
    last.blt run.first || run.last.blt first ||
      (run.stride == 2 && (stride == 2 || first == last) && first % 2 != run.first % 2)

theorem contains_eq_false {run other : CaseRun} {point image : Nat} (member : run ∈ caseRuns)
    (known : other ∈ caseRuns) (contains : run.contains point = true)
    (shifted : (point : Int) + run.shift = image) : other.contains image = false := by
  have positive : ∀ run ∈ caseRuns, 0 ≤ (run.first : Int) + run.shift := by decide +kernel
  have clear : (caseRuns.all fun run => clearOfCapitals (run.first + run.shift).toNat
      (run.last + run.shift).toNat run.stride) = true := by decide +kernel
  have := positive run member
  have apart := List.all_eq_true.mp (List.all_eq_true.mp clear run member) other known
  simp only [CaseRun.contains, Bool.and_eq_true, decide_eq_true_eq, beq_iff_eq] at contains
  obtain ⟨⟨above, below⟩, onStride⟩ := contains
  simp only [CaseRun.contains, Bool.and_eq_false_iff, decide_eq_false_iff_not, beq_eq_false_iff_ne,
    ne_eq]
  simp only [Bool.or_eq_true, Nat.blt_eq, Bool.and_eq_true, beq_iff_eq, bne_iff_ne, ne_eq] at apart
  rcases apart with (beyond | before) | ⟨⟨otherStride, stride⟩, parity⟩
  · omega
  · omega
  · rw [otherStride]
    rcases stride with two | single
    · rw [two] at onStride
      omega
    · omega

theorem isSmall_of_contains {run : CaseRun} {point : Nat} (member : run ∈ caseRuns)
    (contains : run.contains point = true) :
    isSmall ((point : Int) + run.shift).toNat = true := by
  have bounds : ∀ run ∈ caseRuns, 0x5A < (run.first : Int) + run.shift ∧
      ((run.last : Int) + run.shift < 0x130 ∨ 0x130 < (run.first : Int) + run.shift) := by
    decide +kernel
  have := bounds run member
  have inside : run.first ≤ point ∧ point ≤ run.last := by
    simp only [CaseRun.contains, Bool.and_eq_true, decide_eq_true_eq] at contains
    exact contains.1
  simp only [isSmall, Bool.and_eq_true, List.all_eq_true, Bool.not_eq_true', bne_iff_ne, ne_eq]
  refine ⟨⟨?_, by omega⟩, by simp only [Bool.and_eq_false_iff, decide_eq_false_iff_not]; omega⟩
  intro other known
  exact contains_eq_false member known contains (by omega)

theorem isSmall_of_ascii {point : Nat} (ascii : point < 0x80)
    (small : ¬ (0x41 ≤ point ∧ point ≤ 0x5A)) : isSmall point = true := by
  have beyond : ∀ run ∈ caseRuns, 0x80 ≤ run.first := by decide +kernel
  simp only [isSmall, Bool.and_eq_true, List.all_eq_true, Bool.not_eq_true', bne_iff_ne, ne_eq]
  refine ⟨⟨?_, by omega⟩, by simpa using small⟩
  intro run member
  have := beyond run member
  simp only [CaseRun.contains, Bool.and_eq_false_iff, decide_eq_false_iff_not]
  omega

section Characters

variable {character small : Char} {before after : List Char}

theorem isSmall_toLower (ascii : character.toNat < 0x80) : isSmall character.toLower.toNat = true := by
  rcases toLower_cases character with ⟨above, below, shifted⟩ | ⟨plain, same⟩
  · rw [shifted]
    exact isSmall_of_ascii (by omega) (by omega)
  · rw [same]
    exact isSmall_of_ascii ascii plain

theorem isSmall_of_mem_lowercaseChar (member : small ∈ lowercaseChar character) :
    isSmall small.toNat = true := by
  unfold lowercaseChar at member
  split at member
  · rename_i ascii
    rw [List.mem_singleton.mp member]
    exact isSmall_toLower ascii
  · rename_i beyond
    split at member
    · revert member
      simp only [List.mem_cons, List.not_mem_nil, or_false]
      rintro (rfl | rfl) <;> decide +kernel
    · rename_i undotted
      split at member
      · rename_i run found
        have contains : run.contains character.toNat = true :=
          List.find?_some (p := fun run : CaseRun => run.contains character.toNat) found
        rw [List.mem_singleton.mp member]
        rcases toNat_ofNat_eq_or ((character.toNat : Int) + run.shift).toNat with kept | none
        · rw [kept]
          exact isSmall_of_contains (List.mem_of_find?_eq_some found) contains
        · rw [none]
          decide +kernel
      · rename_i absent
        rw [List.mem_singleton.mp member]
        simp only [isSmall, Bool.and_eq_true, List.all_eq_true, Bool.not_eq_true', bne_iff_ne, ne_eq]
        refine ⟨⟨?_, fun dotted => undotted (Char.toNat_inj.mp dotted)⟩, ?_⟩
        · intro run known
          simpa using List.find?_eq_none.mp absent run known
        · simp only [Bool.and_eq_false_iff, decide_eq_false_iff_not]
          omega

theorem isSmall_of_mem_lowercaseAt (member : small ∈ lowercaseAt before character after) :
    isSmall small.toNat = true := by
  unfold lowercaseAt at member
  split at member
  · rw [List.mem_singleton.mp member, lowercaseSigma]
    split <;> decide +kernel
  · exact isSmall_of_mem_lowercaseChar member

theorem lowercaseAt_of_isSmall (isSmall : isSmall character.toNat = true) :
    lowercaseAt before character after = [character] := by
  have steady : ∀ run ∈ caseRuns, run.contains character.toNat = false := by
    simp only [Text.isSmall, Bool.and_eq_true, List.all_eq_true, Bool.not_eq_true'] at isSmall
    exact isSmall.1.1
  rw [lowercaseAt, if_neg, lowercaseChar]
  · split
    · simp only [Text.isSmall, Bool.and_eq_true, Bool.not_eq_true', Bool.and_eq_false_iff,
        decide_eq_false_iff_not] at isSmall
      rcases toLower_cases character with ⟨above, below, -⟩ | ⟨-, same⟩
      · exact absurd above (isSmall.2.resolve_right fun high => high below)
      · rw [same]
    · rw [if_neg, List.find?_eq_none.mpr]
      · intro run known
        simp [steady run known]
      · rintro rfl
        exact absurd isSmall (by decide +kernel)
  · rintro rfl
    exact absurd isSmall (by decide +kernel)

end Characters

theorem isSmall_of_mem_lowercaseFrom {before text : List Char} {small : Char}
    (member : small ∈ lowercaseFrom before text) : isSmall small.toNat = true := by
  induction text generalizing before with
  | nil => cases member
  | cons character text ih =>
      rw [lowercaseFrom_cons] at member
      rcases List.mem_append.mp member with here | later
      · exact isSmall_of_mem_lowercaseAt here
      · exact ih later

theorem lowercaseFrom_of_all_small {before text : List Char}
    (all : ∀ character ∈ text, isSmall character.toNat = true) : lowercaseFrom before text = text := by
  induction text generalizing before with
  | nil => rfl
  | cons character text ih =>
      rw [List.forall_mem_cons] at all
      rw [lowercaseFrom_cons, lowercaseAt_of_isSmall all.1, ih all.2]
      rfl

theorem lowercase_lowercase (text : String) : lowercase (lowercase text) = lowercase text := by
  rw [lowercase, lowercase, String.toList_ofList]
  congr 1
  exact lowercaseFrom_of_all_small fun _ => isSmall_of_mem_lowercaseFrom

end ContingentPlan.Text
