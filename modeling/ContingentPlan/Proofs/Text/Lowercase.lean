import ContingentPlan.Proofs.Text.Trim
import ContingentPlan.Text.Lowercase

/-!
The lower case of texts that go on behind a blank or a colon. Letter case neither makes nor removes a
blank or a colon, and what stands before a blank has no influence on the letters behind it; what stands
before a colon has, on a capital sigma only.
-/

namespace ContingentPlan

namespace Text

/-- The code points that letter case leads away from, or to; a number that is no character counts as
zero. -/
def movingRanges : List (Nat × Nat) :=
  [(0, 0), (0x41, 0x5A), (0x61, 0x7A), (0x130, 0x130), (0x307, 0x307), (0x3C2, 0x3C3)]
    ++ caseRuns.map (fun run => (run.first, run.last))
    ++ caseRuns.map fun run =>
      (((run.first : Int) + run.shift).toNat, ((run.last : Int) + run.shift).toNat)

def moves (character : Char) : Bool := inRanges movingRanges character.toNat

theorem inRanges_iff {ranges : List (Nat × Nat)} {point : Nat} :
    inRanges ranges point = true ↔ ∃ range ∈ ranges, range.1 ≤ point ∧ point ≤ range.2 := by
  simp [inRanges]

theorem moves_of_mem {character : Char} {range : Nat × Nat} (member : range ∈ movingRanges)
    (above : range.1 ≤ character.toNat) (below : character.toNat ≤ range.2) :
    moves character = true :=
  inRanges_iff.mpr ⟨range, member, above, below⟩

def disjoint (first second : List (Nat × Nat)) : Bool :=
  first.all fun left => second.all fun right => left.2 < right.1 || right.2 < left.1

theorem not_inRanges_of_disjoint {first second : List (Nat × Nat)} {point : Nat}
    (apart : disjoint first second = true) (inside : inRanges first point = true) :
    inRanges second point = false := by
  rw [← Bool.not_eq_true]
  intro insideToo
  obtain ⟨left, inFirst, leftAbove, leftBelow⟩ := inRanges_iff.mp inside
  obtain ⟨right, inSecond, rightAbove, rightBelow⟩ := inRanges_iff.mp insideToo
  rw [disjoint, List.all_eq_true] at apart
  have separate := List.all_eq_true.mp (apart left inFirst) right inSecond
  simp only [Bool.or_eq_true, decide_eq_true_eq] at separate
  omega

theorem toNat_ofNat_eq_or (number : Nat) :
    (Char.ofNat number).toNat = number ∨ (Char.ofNat number).toNat = 0 := by
  by_cases valid : number.isValidChar
  · rw [Char.ofNat, dif_pos valid]
    exact Or.inl rfl
  · rw [Char.ofNat, dif_neg valid]
    exact Or.inr rfl

theorem toLower_cases (character : Char) :
    (0x41 ≤ character.toNat ∧ character.toNat ≤ 0x5A ∧
      character.toLower.toNat = character.toNat + 0x20) ∨
    (¬ (0x41 ≤ character.toNat ∧ character.toNat ≤ 0x5A) ∧ character.toLower = character) := by
  unfold Char.toLower
  split
  · rename_i capital
    have above : 0x41 ≤ character.toNat := UInt32.le_iff_toNat_le.mp capital.1
    have below : character.toNat ≤ 0x5A := UInt32.le_iff_toNat_le.mp capital.2
    refine Or.inl ⟨above, below, ?_⟩
    change (character.val + ('a'.val - 'A'.val)).toNat = character.toNat + 0x20
    rw [UInt32.toNat_add]
    exact Nat.mod_eq_of_lt (by change character.toNat + 0x20 < 2 ^ 32; omega)
  · rename_i other
    refine Or.inr ⟨fun capital => other ?_, rfl⟩
    exact ⟨UInt32.le_iff_toNat_le.mpr capital.1, UInt32.le_iff_toNat_le.mpr capital.2⟩

theorem toLower_eq_or (character : Char) :
    character.toLower = character ∨
      moves character = true ∧ moves character.toLower = true := by
  rcases toLower_cases character with ⟨above, below, shifted⟩ | ⟨-, same⟩
  · have capitals : (0x41, 0x5A) ∈ movingRanges := by simp [movingRanges]
    have letters : (0x61, 0x7A) ∈ movingRanges := by simp [movingRanges]
    refine Or.inr ⟨moves_of_mem capitals above below, moves_of_mem letters ?_ ?_⟩
    · rw [shifted]
      omega
    · rw [shifted]
      omega
  · exact Or.inl same

theorem moves_of_contains {run : CaseRun} {point : Nat} (member : run ∈ caseRuns)
    (contains : run.contains point = true) :
    (∃ range ∈ movingRanges, range.1 ≤ point ∧ point ≤ range.2) ∧
      moves (Char.ofNat ((point : Int) + run.shift).toNat) = true := by
  simp only [CaseRun.contains, Bool.and_eq_true, decide_eq_true_eq] at contains
  obtain ⟨⟨above, below⟩, -⟩ := contains
  constructor
  · refine ⟨(run.first, run.last), ?_, above, below⟩
    apply List.mem_append_left
    exact List.mem_append_right _ (List.mem_map.mpr ⟨run, member, rfl⟩)
  · rcases toNat_ofNat_eq_or ((point : Int) + run.shift).toNat with kept | none
    · have image : (((run.first : Int) + run.shift).toNat, ((run.last : Int) + run.shift).toNat) ∈
          movingRanges := List.mem_append_right _ (List.mem_map.mpr ⟨run, member, rfl⟩)
      apply moves_of_mem image
      · rw [kept]
        dsimp only
        omega
      · rw [kept]
        dsimp only
        omega
    · have zero : ((0, 0) : Nat × Nat) ∈ movingRanges := by simp [movingRanges]
      apply moves_of_mem zero <;> simp [none]

theorem lowercaseChar_eq_or (character : Char) :
    lowercaseChar character = [character] ∨
      moves character = true ∧ lowercaseChar character ≠ [] ∧
        ∀ small ∈ lowercaseChar character, moves small = true := by
  unfold lowercaseChar
  split
  · rcases toLower_eq_or character with same | ⟨moved, small⟩
    · exact Or.inl (by rw [same])
    · exact Or.inr ⟨moved, by simp, by simpa using small⟩
  · split
    · rename_i dotted
      have plain : moves character = true := by
        rw [dotted]
        decide +kernel
      have letters : moves 'i' = true ∧ moves '\u0307' = true := by decide +kernel
      exact Or.inr ⟨plain, by simp, by simpa using letters⟩
    · split
      · rename_i run found
        have contains : run.contains character.toNat = true :=
          List.find?_some (p := fun run : CaseRun => run.contains character.toNat) found
        obtain ⟨inside, small⟩ := moves_of_contains (List.mem_of_find?_eq_some found) contains
        exact Or.inr ⟨inRanges_iff.mpr inside, by simp, by simpa using small⟩
      · exact Or.inl rfl

def lowercaseAt (before : List Char) (character : Char) (after : List Char) : List Char :=
  if character = 'Σ' then [lowercaseSigma before after] else lowercaseChar character

theorem lowercaseFrom_cons (before : List Char) (character : Char) (rest : List Char) :
    lowercaseFrom before (character :: rest) =
      lowercaseAt before character rest ++ lowercaseFrom (character :: before) rest :=
  rfl

theorem lowercaseAt_eq_or (before : List Char) (character : Char) (after : List Char) :
    lowercaseAt before character after = [character] ∨
      moves character = true ∧ lowercaseAt before character after ≠ [] ∧
        ∀ small ∈ lowercaseAt before character after, moves small = true := by
  unfold lowercaseAt
  split
  · rename_i sigma
    refine Or.inr ⟨by rw [sigma]; decide +kernel, by simp, ?_⟩
    intro small member
    rw [List.mem_singleton] at member
    rw [member, lowercaseSigma]
    split <;> decide +kernel
  · exact lowercaseChar_eq_or character

section Steady

variable {before after rest : List Char} {character small blank : Char}

theorem lowercaseAt_of_steady (steady : moves character = false) :
    lowercaseAt before character after = [character] := by
  rcases lowercaseAt_eq_or before character after with same | ⟨moved, -⟩
  · exact same
  · rw [steady] at moved
    cases moved

theorem eq_of_mem_lowercaseAt (member : small ∈ lowercaseAt before character after)
    (steady : moves small = false) : small = character := by
  rcases lowercaseAt_eq_or before character after with same | ⟨-, -, all⟩
  · rwa [same, List.mem_singleton] at member
  · rw [all small member] at steady
    cases steady

theorem lowercaseAt_ne_nil : lowercaseAt before character after ≠ [] := by
  rcases lowercaseAt_eq_or before character after with same | ⟨-, nonempty, -⟩
  · rw [same]
    simp
  · exact nonempty

theorem not_moves_of_isBlank (isBlank : isBlank blank = true) : moves blank = false :=
  not_inRanges_of_disjoint (by decide +kernel) isBlank

theorem isCased_of_isBlank (isBlank : isBlank blank = true) : isCased blank = false :=
  not_inRanges_of_disjoint (by decide +kernel) isBlank

theorem isCaseIgnorable_of_isBlank (isBlank : isBlank blank = true) :
    isCaseIgnorable blank = false :=
  not_inRanges_of_disjoint (by decide +kernel) isBlank

theorem not_moves_colon : moves ':' = false := by decide +kernel

end Steady

section Context

variable {before other near far first second text : List Char} {character blank : Char}

theorem meetsCased_cons (character : Char) (far : List Char) :
    meetsCased (character :: far) =
      if isCaseIgnorable character then meetsCased far else isCased character := by
  cases ignorable : isCaseIgnorable character with
  | true => simp [meetsCased, ignorable]
  | false => simp [meetsCased, ignorable]

theorem meetsCased_cons_of_isBlank (isBlank : isBlank blank = true) (far : List Char) :
    meetsCased (blank :: far) = false := by
  simp [meetsCased_cons, isCaseIgnorable_of_isBlank isBlank, isCased_of_isBlank isBlank]

theorem meetsCased_append_of_isBlank (isBlank : isBlank blank = true) (near far : List Char) :
    meetsCased (near ++ blank :: far) = meetsCased near := by
  induction near with
  | nil => exact meetsCased_cons_of_isBlank isBlank far
  | cons character near ih => rw [List.cons_append, meetsCased_cons, meetsCased_cons, ih]

theorem lowercaseAt_congr (same : meetsCased before = meetsCased other) (after : List Char) :
    lowercaseAt before character after = lowercaseAt other character after := by
  rw [lowercaseAt, lowercaseAt, lowercaseSigma, lowercaseSigma, same]

/-- What stands before a text is asked one question only: whether it ends with a letter. -/
theorem lowercaseFrom_congr (same : meetsCased before = meetsCased other) :
    lowercaseFrom before text = lowercaseFrom other text := by
  induction text generalizing before other with
  | nil => rfl
  | cons character text ih =>
      have next : meetsCased (character :: before) = meetsCased (character :: other) := by
        rw [meetsCased_cons, meetsCased_cons, same]
      rw [lowercaseFrom_cons, lowercaseFrom_cons, lowercaseAt_congr same, ih next]

theorem lowercaseFrom_append_blank (isBlank : isBlank blank = true) (before first rest : List Char) :
    lowercaseFrom before (first ++ blank :: rest) =
      lowercaseFrom before first ++ blank :: lowercaseFrom [] rest := by
  induction first generalizing before with
  | nil =>
      have context : meetsCased (blank :: before) = meetsCased [] :=
        meetsCased_cons_of_isBlank isBlank before
      rw [List.nil_append, lowercaseFrom_cons,
        lowercaseAt_of_steady (not_moves_of_isBlank isBlank), lowercaseFrom_congr context]
      rfl
  | cons character first ih =>
      have here : lowercaseAt before character (first ++ blank :: rest) =
          lowercaseAt before character first := by
        rw [lowercaseAt, lowercaseAt, lowercaseSigma, lowercaseSigma,
          meetsCased_append_of_isBlank isBlank]
      rw [List.cons_append, lowercaseFrom_cons, lowercaseFrom_cons, here, ih, List.append_assoc]

theorem exists_lowercaseFrom_append (before first second : List Char) :
    ∃ small, lowercaseFrom before (first ++ second) =
        small ++ lowercaseFrom (first.reverse ++ before) second ∧
      ∀ character ∈ small, moves character = false → character ∈ first := by
  induction first generalizing before with
  | nil => exact ⟨[], rfl, by simp⟩
  | cons character first ih =>
      obtain ⟨small, split, kept⟩ := ih (character :: before)
      refine ⟨lowercaseAt before character (first ++ second) ++ small, ?_, ?_⟩
      · rw [List.cons_append, lowercaseFrom_cons, split, List.reverse_cons, List.append_assoc,
          List.append_assoc]
        rfl
      · intro own member steady
        rcases List.mem_append.mp member with here | later
        · rw [eq_of_mem_lowercaseAt here steady]
          exact List.mem_cons_self
        · exact List.mem_cons_of_mem _ (kept own later steady)

theorem mem_lowercaseFrom (steady : moves character = false)
    (member : character ∈ lowercaseFrom before text) : character ∈ text := by
  obtain ⟨small, split, kept⟩ := exists_lowercaseFrom_append before text []
  rw [List.append_nil] at split
  rw [split] at member
  simp only [lowercaseFrom, List.append_nil] at member
  exact kept character member steady

theorem lowercaseFrom_eq_nil_iff : lowercaseFrom before text = [] ↔ text = [] := by
  cases text with
  | nil => simp [lowercaseFrom]
  | cons character text => simp [lowercaseFrom_cons, lowercaseAt_ne_nil]

end Context

theorem Solid.lowercase {text : List Char} (solid : Solid text) (before : List Char) :
    Solid (lowercaseFrom before text) := by
  intro character member
  rw [← Bool.not_eq_true]
  intro blank
  have among := mem_lowercaseFrom (not_moves_of_isBlank blank) member
  rw [solid character among] at blank
  cases blank

theorem wordsFrom_lowercase_append {first : List Char} (solid : Solid first) (text : List Char) :
    wordsFrom [] (lowercaseFrom [] (first ++ text)) =
      (wordsFrom [] (first ++ text)).map (lowercaseFrom []) := by
  -- `first` is the part of the current word that has been passed
  have word {first : List Char} (solid : Solid first) :
      wordsFrom [] (lowercaseFrom [] first) = (wordsFrom [] first).map (lowercaseFrom []) := by
    rw [wordsFrom_of_solid (solid.lowercase []), wordsFrom_of_solid solid]
    simp only [lowercaseFrom_eq_nil_iff]
    split <;> rfl
  induction text generalizing first with
  | nil =>
      rw [List.append_nil]
      exact word solid
  | cons character text ih =>
      cases blank : isBlank character with
      | true =>
          have rest := ih solid_nil
          rw [List.nil_append] at rest
          rw [lowercaseFrom_append_blank blank, wordsFrom_append_blank blank,
            wordsFrom_append_blank blank, List.map_append, word solid, rest]
      | false =>
          rw [List.append_cons]
          exact ih (solid.concat blank)

theorem words_lowercase (text : String) : words (lowercase text) = (words text).map lowercase := by
  have cut := wordsFrom_lowercase_append solid_nil text.toList
  rw [List.nil_append] at cut
  rw [words, words, lowercase, String.toList_ofList, cut, List.map_map, List.map_map]
  apply List.map_congr_left
  intro word _
  simp [lowercase]

section Blanks

variable {lead tail : List Char}

theorem lowercaseFrom_blank_append (blanks : Blank lead) (text : List Char) :
    lowercaseFrom [] (lead ++ text) = lead ++ lowercaseFrom [] text := by
  induction lead with
  | nil => rfl
  | cons blank lead ih =>
      obtain ⟨isBlank, rest⟩ := blanks.of_cons
      have cut := lowercaseFrom_append_blank isBlank [] [] (lead ++ text)
      rw [ih rest] at cut
      exact cut

theorem lowercaseFrom_append_of_blank (blanks : Blank tail) (before text : List Char) :
    lowercaseFrom before (text ++ tail) = lowercaseFrom before text ++ tail := by
  cases tail with
  | nil => rw [List.append_nil, List.append_nil]
  | cons blank tail =>
      obtain ⟨isBlank, rest⟩ := blanks.of_cons
      have same := lowercaseFrom_blank_append rest []
      rw [List.append_nil] at same
      rw [lowercaseFrom_append_blank isBlank, same, lowercaseFrom, List.append_nil]

theorem exists_lowercase_trim (text : String) :
    ∃ lead tail, (lowercase text).toList = lead ++ (lowercase (trim text)).toList ++ tail ∧
      Blank lead ∧ Blank tail := by
  obtain ⟨lead, tail, split, leading, trailing⟩ := exists_trimChars text.toList
  refine ⟨lead, tail, ?_, leading, trailing⟩
  rw [lowercase, lowercase, trim, String.toList_ofList, String.toList_ofList, String.toList_ofList]
  conv => lhs; rw [split]
  rw [lowercaseFrom_append_of_blank trailing, lowercaseFrom_blank_append leading]

end Blanks

section Colon

def behindColon? (text : List Char) : Option (List Char) :=
  match text.dropWhile (· ≠ ':') with
  | [] => none
  | _ :: rest => some rest

theorem behindColon?_append {step : List Char} (absent : ':' ∉ step) (rest : List Char) :
    behindColon? (step ++ ':' :: rest) = some rest := by
  have passed : ∀ character ∈ step, decide (character ≠ ':') = true := by
    intro character member
    rw [decide_eq_true_eq]
    rintro rfl
    exact absent member
  rw [behindColon?, List.dropWhile_append_of_pos passed]
  rfl

theorem Blank.not_mem_colon {text : List Char} (blanks : Blank text) : ':' ∉ text := by
  intro member
  have blank := blanks ':' member
  cases blank

theorem behindColon?_of_blanks {lead tail : List Char} (leading : Blank lead) (trailing : Blank tail)
    (text : List Char) :
    behindColon? (lead ++ text ++ tail) = (behindColon? text).map (· ++ tail) := by
  have passes {blanks : List Char} (all : Blank blanks) :
      ∀ character ∈ blanks, decide (character ≠ ':') = true := by
    intro character member
    rw [decide_eq_true_eq]
    rintro rfl
    exact all.not_mem_colon member
  rw [behindColon?, behindColon?, List.append_assoc, List.dropWhile_append_of_pos (passes leading),
    List.dropWhile_append, List.dropWhile_eq_nil_iff.mpr (passes trailing)]
  cases text.dropWhile (· ≠ ':') with
  | nil => rfl
  | cons colon rest => rfl

/-- The first letter of the text is a capital sigma, and no other letter follows it closely. -/
def opensWithLoneSigma (text : List Char) : Bool :=
  match text.dropWhile isCaseIgnorable with
  | 'Σ' :: after => !meetsCased after
  | _ => false

/-- No letter stands right before the colon, or no lone sigma right behind it. -/
def Sheltered (step rest : List Char) : Prop :=
  meetsCased step.reverse = false ∨ opensWithLoneSigma rest = false

instance (step rest : List Char) : Decidable (Sheltered step rest) :=
  inferInstanceAs (Decidable (_ ∨ _))

theorem lowercaseFrom_of_not_loneSigma {rest : List Char}
    (opens : opensWithLoneSigma rest = false) (before other : List Char) :
    lowercaseFrom before rest = lowercaseFrom other rest := by
  induction rest generalizing before other with
  | nil => rfl
  | cons character rest ih =>
      have here : lowercaseAt before character rest = lowercaseAt other character rest := by
        by_cases sigma : character = 'Σ'
        · have followed : meetsCased rest = true := by
            rw [opensWithLoneSigma, sigma, List.dropWhile_cons_of_neg (by decide +kernel)] at opens
            simpa using opens
          simp [lowercaseAt, lowercaseSigma, followed]
        · rw [lowercaseAt, lowercaseAt, if_neg sigma, if_neg sigma]
      rw [lowercaseFrom_cons, lowercaseFrom_cons, here]
      cases ignorable : isCaseIgnorable character with
      | true =>
          rw [opensWithLoneSigma, List.dropWhile_cons_of_pos ignorable] at opens
          rw [ih opens]
      | false =>
          have next : meetsCased (character :: before) = meetsCased (character :: other) := by
            simp [meetsCased_cons, ignorable]
          rw [lowercaseFrom_congr next]

def finalSigma : List Char → List Char
  | [] => []
  | character :: rest =>
      if isCaseIgnorable character then character :: finalSigma rest else 'ς' :: rest

theorem lowercaseFrom_of_loneSigma {rest before : List Char} (opens : opensWithLoneSigma rest = true)
    (behind : meetsCased before = true) (other : List Char) :
    lowercaseFrom before rest = lowercaseFrom other (finalSigma rest) := by
  induction rest generalizing before other with
  | nil => cases opens
  | cons character rest ih =>
      rw [finalSigma]
      cases ignorable : isCaseIgnorable character with
      | true =>
          have different : character ≠ 'Σ' := by
            rintro rfl
            revert ignorable
            decide +kernel
          have here : lowercaseAt before character rest =
              lowercaseAt other character (finalSigma rest) := by
            rw [lowercaseAt, lowercaseAt, if_neg different, if_neg different]
          have next : meetsCased (character :: before) = true := by
            rwa [meetsCased_cons, if_pos ignorable]
          rw [opensWithLoneSigma, List.dropWhile_cons_of_pos ignorable] at opens
          rw [if_pos rfl, lowercaseFrom_cons, lowercaseFrom_cons, here, ih opens next]
      | false =>
          rw [opensWithLoneSigma, List.dropWhile_cons_of_neg (by simp [ignorable])] at opens
          have sigma : character = 'Σ' ∧ meetsCased rest = false := by
            revert opens
            split <;> simp_all
          obtain ⟨rfl, alone⟩ := sigma
          have small : lowercaseAt before 'Σ' rest = lowercaseAt other 'ς' rest := by
            have still : lowercaseAt other 'ς' rest = ['ς'] := by
              rw [lowercaseAt, if_neg (by decide)]
              decide +kernel
            rw [still, lowercaseAt, if_pos rfl, lowercaseSigma, behind, alone]
            rfl
          have next : meetsCased ('Σ' :: before) = meetsCased ('ς' :: other) := by
            have letters : isCased 'Σ' = true ∧ isCased 'ς' = true := by decide +kernel
            have final : isCaseIgnorable 'ς' = false := by decide +kernel
            rw [meetsCased_cons, meetsCased_cons, ignorable, final, if_neg Bool.false_ne_true,
              if_neg Bool.false_ne_true, letters.1, letters.2]
          rw [if_neg Bool.false_ne_true, lowercaseFrom_cons, lowercaseFrom_cons, small,
            lowercaseFrom_congr next]

def settled (step rest : List Char) : List Char :=
  if Sheltered step rest then rest else finalSigma rest

/-- The step before the colon settles the form of a lone sigma. Nothing else of what follows the colon
depends on it. -/
theorem behindColon?_lowercase {step : List Char} (absent : ':' ∉ step) (rest : List Char) :
    behindColon? (lowercaseFrom [] (step ++ ':' :: rest)) =
      some (lowercaseFrom [] (settled step rest)) := by
  obtain ⟨small, split, kept⟩ := exists_lowercaseFrom_append [] step (':' :: rest)
  have still : ':' ∉ small := fun member => absent (kept ':' member not_moves_colon)
  have context : meetsCased (':' :: (step.reverse ++ [])) = meetsCased step.reverse := by
    rw [List.append_nil, meetsCased_cons, if_pos (by decide +kernel)]
  have behind : lowercaseFrom (':' :: (step.reverse ++ [])) rest =
      lowercaseFrom [] (settled step rest) := by
    rw [settled]
    split
    · rename_i sheltered
      rcases sheltered with outside | opens
      · rw [outside] at context
        exact lowercaseFrom_congr context
      · exact lowercaseFrom_of_not_loneSigma opens _ _
    · rename_i exposed
      rw [Sheltered, not_or, Bool.not_eq_false, Bool.not_eq_false] at exposed
      rw [exposed.1] at context
      exact lowercaseFrom_of_loneSigma exposed.2 context []
  rw [split, lowercaseFrom_cons, lowercaseAt_of_steady not_moves_colon, behind, List.singleton_append,
    behindColon?_append still]

end Colon

end Text

end ContingentPlan
